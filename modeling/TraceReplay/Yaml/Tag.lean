/-
**Tags and anchors of YAML documents.**

A node can be given a tag, which says what it is, and an anchor, by which it can be repeated.  A tag is
written in full between angle brackets, or by a handle that stands for the beginning of it and the
rest.  Characters of it may be written by the octets of their encoding.

Main definitions:

* `Yaml.Tag` — tags, as octets;
* `Yaml.Shorthand` — a tag as it is written;
* `Yaml.Handles` — what the handles of a document stand for;
* `Yaml.name?`, `Yaml.uri?`, `Yaml.handle?`, `Yaml.shorthand?` — the readers.
-/

import TraceReplay.Text.Radix
import TraceReplay.Yaml.Cell

set_option relaxedAutoImplicit false
set_option autoImplicit false

namespace TraceReplay

namespace Yaml

/-! ### Tags -/

/-- The octets of a tag. -/
abbrev Tag := List UInt8

namespace Tag

/-- The octets of a text. -/
def ofString (s : String) : Tag := s.toUTF8.toList

/-- The text of a tag, if its octets encode one. -/
def text? (t : Tag) : Option String := String.fromUTF8? ⟨t.toArray⟩

/-- The tag of a type that all documents share. -/
def core (name : String) : Tag := ofString ("tag:yaml.org,2002:" ++ name)

/-- The tag that stands for no particular one. -/
def unspecific : Tag := ofString "!"

/-- The name that a local tag gives: what stands behind its exclamation mark, or the mark itself if
nothing does. -/
def variant? : Tag → Option String
  | [] => none
  | mark :: rest =>
      if [mark] ≠ unspecific then none
      else if rest = [] then text? [mark]
      else text? rest

end Tag

/-- A tag as it is written: a handle and the rest.  The handle of a tag that is written in full is
empty. -/
structure Shorthand where
  handle : String
  suffix : Tag
  deriving DecidableEq

/-- The beginnings of tags that handles stand for. -/
abbrev Handles := List (String × Tag)

namespace Handles

/-- The handles that every document has, unless it gives them another meaning. -/
def standard : Handles := [("!", Tag.unspecific), ("!!", Tag.core "")]

/-- The tag that a written one stands for. -/
def resolve? (handles : Handles) (s : Shorthand) : Option Tag :=
  if s.handle = "" then some s.suffix
  else ((handles ++ standard).lookup s.handle).map fun start => start ++ s.suffix

end Handles

/-! ### Reading -/

/-- The name that comes next, which is not empty, and what follows. -/
def name? (cells : Cells) : Option (String × Cells) :=
  match spanOf isNameChar cells with
  | ([], _) => none
  | (name, rest) => some (String.ofList (chars name), rest)

/-- The name of an anchor, and what follows.  A gap has to come next, or one of some marks. -/
def anchor? (cells : Cells) : Option (String × Cells) := do
  let (name, rest) ← name? cells
  if atGap rest || atOneOf ['?', ':', ',', ']', '\x7d', '%', '@', '\x60'] rest then
    some (name, rest)
  else none

/-- The octet that two digits behind a percent sign spell, and what follows. -/
def octet? : Cells → Option (Nat × Cells)
  | mark :: high :: low :: rest =>
      if mark.char = '%' then
        (Radix.value? 16 [high.char, low.char]).map fun n => (n, rest)
      else none
  | _ => none

/-- Number of octets that encode a character, given by the first of them. -/
def octets? (first : Nat) : Option Nat :=
  if first < 0x80 then some 1
  else if first < 0xc0 then none
  else if first < 0xe0 then some 2
  else if first < 0xf0 then some 3
  else if first < 0xf8 then some 4
  else none

/-- Octets behind the first one of a character, and what follows. -/
def moreOctets? : Nat → Cells → Option (Tag × Cells)
  | 0, cells => some ([], cells)
  | count + 1, cells => do
      let (n, rest) ← octet? cells
      if n < 0x80 || 0xc0 ≤ n then none
      let (more, rest) ← moreOctets? count rest
      return (UInt8.ofNat n :: more, rest)

/-- The octets of a character written by them, and what follows. -/
def escaped? (cells : Cells) : Option (Tag × Cells) := do
  let (n, rest) ← octet? cells
  let (more, rest) ← moreOctets? ((← octets? n) - 1) rest
  return (UInt8.ofNat n :: more, rest)

/-- Whether a character may stand in a tag; `full` says that the tag is written in full. -/
def isTagChar (full : Bool) (c : Char) : Bool :=
  isNameChar c
    || [';', '/', '?', ':', '@', '&', '=', '+', '$', '.', '%', '!', '~', '*', '\'', '(', ')'].contains c
    || (full && [',', '[', ']'].contains c)

/-- The characters of a tag, and what follows. -/
def tagChars? (full : Bool) : Nat → Cells → Option (Tag × Cells)
  | 0, _ => none
  | _ + 1, [] => some ([], [])
  | fuel + 1, c :: rest =>
      if !isTagChar full c.char then some ([], c :: rest)
      else do
        let (front, rest) ←
          if c.char = '%' then escaped? (c :: rest) else some ([UInt8.ofNat c.char.toNat], rest)
        let (more, rest) ← tagChars? full fuel rest
        return (front ++ more, rest)

/-- The octets in front of the first zero, where a tag ends. -/
def Tag.untilZero (t : Tag) : Tag := t.takeWhile (· ≠ 0)

/-- The characters of a tag, of which there may be none, and what follows. -/
def uri? (full : Bool) (cells : Cells) : Option (Tag × Cells) :=
  (tagChars? full (cells.length + 1) cells).map fun r => (r.1.untilZero, r.2)

/-- The characters of a tag, of which there is at least one, and what follows. -/
def someUri? (full : Bool) (cells : Cells) : Option (Tag × Cells) :=
  match cells with
  | c :: _ => if isTagChar full c.char then uri? full cells else none
  | [] => none

/-- An exclamation mark and the name behind it, with a second mark if there is one, and what
follows. -/
def handle? (cells : Cells) : Option (String × Cells) :=
  if !atOneOf ['!'] cells then none
  else
    let (name, rest) := spanOf isNameChar (cells.drop 1)
    let close := if atOneOf ['!'] rest then 1 else 0
    some (String.ofList ('!' :: chars name ++ chars (rest.take close)), rest.drop close)

/-- Whether a text is a handle that stands for a beginning of its own: it has two marks. -/
def isNamedHandle (s : String) : Bool := 1 < s.length && s.back = '!'

/-- A tag that comes next, and what follows.  What looks like a handle without its second mark is the
beginning of the rest; an exclamation mark alone is a tag of its own. -/
def shorthandOnly? (cells : Cells) : Option (Shorthand × Cells) :=
  if atOneOf ['<'] (cells.drop 1) then do
    let (suffix, rest) ← someUri? true (cells.drop 2)
    if atOneOf ['>'] rest then return (⟨"", suffix⟩, rest.drop 1) else none
  else do
    let (handle, rest) ← handle? cells
    if isNamedHandle handle then
      let (suffix, rest) ← someUri? false rest
      return (⟨handle, suffix⟩, rest)
    else
      let (more, rest) ← uri? false rest
      let suffix := Tag.ofString ((handle.drop 1).toString) ++ more
      return (if suffix = [] then ⟨"", Tag.unspecific⟩ else ⟨"!", suffix⟩, rest)

/-- A tag with the gap that has to follow it; inside brackets a comma may follow as well. -/
def shorthand? (flow : Bool) (cells : Cells) : Option (Shorthand × Cells) :=
  (shorthandOnly? cells).filter fun r => atGap r.2 || (flow && atOneOf [','] r.2)

end Yaml

end TraceReplay
