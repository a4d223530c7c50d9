/-
**The tokens of YAML texts.**

A token is a mark, a property of a node or a scalar.  Collections that are written by indentation have
no marks of their own: the scanner puts them in where a dash, a question mark or a key stands further
right than what surrounds it, and ends them where something stands further left.  Whether a scalar is
a key shows only at the colon behind it, which has to be on the same line and within 1024 characters;
then the marks of the key are put in front of it.

Main definitions:

* `Yaml.Token` — the tokens;
* `Yaml.Scanner` — what has been found so far, the margins that are open and the scalar that may be a
  key;
* `Yaml.Scanner.next?` — one step;
* `Yaml.tokens?` — the tokens of a text.
-/

import TraceReplay.Yaml.Scalar
import TraceReplay.Yaml.Tag

set_option relaxedAutoImplicit false
set_option autoImplicit false

namespace TraceReplay

namespace Yaml

/-- The pieces that a text consists of. -/
inductive Token where
  /-- A directive with a version, by its two numbers. -/
  | version (major minor : Nat)
  /-- A directive that says what a handle stands for. -/
  | tagHandle (handle : String) (start : Tag)
  | documentStart
  | documentEnd
  /-- The beginning of a sequence that is written by indentation. -/
  | blockSequence
  /-- The beginning of a mapping that is written by indentation. -/
  | blockMapping
  /-- The end of either of them. -/
  | blockEnd
  /-- A bracket. -/
  | flowSequence
  | flowSequenceEnd
  /-- A brace. -/
  | flowMapping
  | flowMappingEnd
  /-- The dash in front of an item. -/
  | item
  /-- The comma between things inside brackets. -/
  | comma
  /-- The question mark in front of a key, or what stands for it. -/
  | key
  /-- The colon in front of a value. -/
  | value
  | aliasOf (name : String)
  | anchor (name : String)
  | tag (written : Shorthand)
  | scalar (style : Style) (text : String)
  deriving DecidableEq

/-! ### Directives -/

/-- A number of at most nine digits that comes next, and what follows. -/
def number? (cells : Cells) : Option (Nat × Cells) :=
  let (digits, rest) := spanOf Char.isDigit cells
  if digits.length ≤ 9 then (Radix.value? 10 (chars digits)).map fun n => (n, rest) else none

/-- What stands behind the name of a directive with a version, and what follows. -/
def versionFrom? (cells : Cells) : Option (Token × Cells) := do
  let (major, rest) ← number? (dropBlanks cells)
  if !atOneOf ['.'] rest then none
  let (minor, rest) ← number? (rest.drop 1)
  return (.version major minor, rest)

/-- Whether a text is a handle of tags. -/
def isHandle (s : String) : Bool := s = "!" || isNamedHandle s

/-- What stands behind the name of a directive with a handle, and what follows. -/
def tagHandleFrom? (cells : Cells) : Option (Token × Cells) := do
  let (handle, rest) ← handle? (dropBlanks cells)
  if !isHandle handle || !atOneOf [' ', '\t'] rest then none
  let (start, rest) ← someUri? true (dropBlanks rest)
  if atGap rest then some (.tagHandle handle start, rest) else none

/-- A directive behind its percent sign, and what follows its line. -/
def directive? (cells : Cells) : Option (Token × Cells) := do
  let (name, rest) ← name? cells
  if !atGap rest then none
  let (token, rest) ←
    if name = "YAML" then versionFrom? rest
    else if name = "TAG" then tagHandleFrom? rest
    else none
  return (token, ← endLine? rest)

/-! ### The scanner -/

/-- Something that may turn out to be a key. -/
structure KeyStart where
  /-- Number of tokens in front of it. -/
  position : Nat
  line : Nat
  column : Nat
  /-- Whether nothing but a key can stand here. -/
  required : Bool

/-- Whether a key that began somewhere can still end at a place. -/
def KeyStart.reaches (k : KeyStart) (c : Cell) : Bool :=
  c.line ≤ k.line && c.column ≤ k.column + 1024

/-- What a scanner has found and what it expects. -/
structure Scanner where
  /-- The tokens found, the last one first. -/
  found : List Token := []
  /-- Their number. -/
  count : Nat := 0
  /-- The columns right of the collections by indentation that are open, the innermost first. -/
  margins : List Nat := []
  /-- What may be a key in the innermost brackets. -/
  keyStart : Option KeyStart := none
  /-- What may be a key around each of the brackets that are open, the innermost first. -/
  outer : List (Option KeyStart) := []
  /-- Whether a key may begin here. -/
  keyAllowed : Bool := true

namespace Scanner

/-- Whether brackets are open. -/
def inFlow (s : Scanner) : Bool := !s.outer.isEmpty

/-- The least column of what stands inside the innermost collection by indentation. -/
def margin (s : Scanner) : Nat := s.margins.headD 0

/-- Adds a token. -/
def add (s : Scanner) (t : Token) : Scanner :=
  { s with found := t :: s.found, count := s.count + 1 }

/-- Puts a token in behind a given number of tokens. -/
def insert (s : Scanner) (position : Nat) (t : Token) : Scanner :=
  let later := s.count - position
  { s with
    found := s.found.take later ++ t :: s.found.drop later
    count := s.count + 1 }

/-- Allows a key to begin, or not. -/
def allowKey (s : Scanner) (allowed : Bool) : Scanner := { s with keyAllowed := allowed }

/-- Gives up what may be a key, unless nothing else can stand there. -/
def dropKey? (s : Scanner) : Option Scanner :=
  match s.keyStart with
  | some k => if k.required then none else some { s with keyStart := none }
  | none => some s

/-- Keeps in mind that a key may begin here. -/
def noteKey? (s : Scanner) (c : Cell) : Option Scanner :=
  if s.keyAllowed then
    s.dropKey?.map fun s =>
      { s with
        keyStart := some
          { position := s.count
            line := c.line
            column := c.column
            required := !s.inFlow && s.margin = c.column + 1 } }
  else some s

/-- Gives up what may be a key if its colon cannot come any more. -/
def refresh? (c : Cell) : Option KeyStart → Option (Option KeyStart)
  | none => some none
  | some k => if k.reaches c then some (some k) else if k.required then none else some none

/-- Gives up everything that may be a key and whose colon cannot come any more. -/
def forget? (s : Scanner) (c : Cell) : Option Scanner := do
  return { s with keyStart := ← refresh? c s.keyStart, outer := ← s.outer.mapM (refresh? c) }

/-- Ends the collections by indentation whose margin lies right of a column. -/
def closeTo (s : Scanner) (column : Nat) : Scanner :=
  if s.inFlow then s
  else
    let closed := (s.margins.takeWhile (column < ·)).length
    { s with
      found := List.replicate closed .blockEnd ++ s.found
      count := s.count + closed
      margins := s.margins.drop closed }

/-- Begins a collection by indentation in a column, behind a given number of tokens, unless it has
begun. -/
def openAt (s : Scanner) (column position : Nat) (t : Token) : Scanner :=
  if s.inFlow || column < s.margin then s
  else { s.insert position t with margins := (column + 1) :: s.margins }

/-- Adds a bracket that opens. -/
def openFlow? (s : Scanner) (c : Cell) (t : Token) : Option Scanner :=
  (s.noteKey? c).map fun s =>
    { s.add t with keyStart := none, outer := s.keyStart :: s.outer, keyAllowed := true }

/-- Adds a bracket that closes. -/
def closeFlow? (s : Scanner) (t : Token) : Option Scanner :=
  s.dropKey?.map fun s =>
    let s := (s.add t).allowKey false
    match s.outer with
    | [] => s
    | key :: outer => { s with keyStart := key, outer }

/-- Adds a mark that begins or ends a document. -/
def document? (s : Scanner) (t : Token) : Option Scanner :=
  (s.closeTo 0).dropKey?.map fun s => (s.add t).allowKey false

/-- Adds a comma. -/
def comma? (s : Scanner) : Option Scanner := s.dropKey?.map fun s => (s.add .comma).allowKey true

/-- Adds the dash or question mark that stands in front of an item or a key.  Outside brackets it
begins a collection where none has begun, and only a place for a key is one for it. -/
def marked? (s : Scanner) (c : Cell) (collection t : Token) (allowed : Bool) : Option Scanner :=
  if !s.inFlow && !s.keyAllowed then none
  else (s.openAt c.column s.count collection).dropKey?.map fun s => (s.add t).allowKey allowed

/-- Adds a colon, and the marks of the key in front of it. -/
def value? (s : Scanner) (c : Cell) : Option Scanner :=
  match s.keyStart with
  | some k =>
      let s := (s.insert k.position .key).openAt k.column k.position .blockMapping
      some (({ s with keyStart := none }.add .value).allowKey false)
  | none =>
      if s.inFlow then some ((s.add .value).allowKey false)
      else if s.keyAllowed then
        some (((s.openAt c.column s.count .blockMapping).add .value).allowKey true)
      else none

/-- Adds a token that may be the beginning of a key. -/
def keyed? (s : Scanner) (c : Cell) (t : Token) : Option Scanner :=
  (s.noteKey? c).map fun s => (s.add t).allowKey false

/-- Drops the gap and the comments that come next, and says whether a key may begin behind them.
`comment` says that a comment has begun.  Outside brackets a key may begin on every line, and tabs do
not stand where one may begin.  A byte-order mark may begin a line. -/
def skipGap (flow : Bool) : Bool → Bool → Cells → Bool × Cells
  | keyAllowed, _, [] => (keyAllowed, [])
  | keyAllowed, comment, c :: rest =>
      if isBreak c.char then skipGap flow (keyAllowed || !flow) false rest
      else if comment then skipGap flow keyAllowed true rest
      else if c.char = ' ' || (c.char = '\t' && (flow || !keyAllowed)) then
        skipGap flow keyAllowed false rest
      else if c.char = '#' then skipGap flow keyAllowed true rest
      else if c.char = '\ufeff' && c.column = 0 then skipGap flow keyAllowed false rest
      else (keyAllowed, c :: rest)

/-- Adds a scalar in quotes. -/
def quoted? (s : Scanner) (c : Cell) (double : Bool) (rest : Cells) : Option (Scanner × Cells) := do
  let (text, rest) ← Yaml.quoted? double rest
  let style := if double then Style.doubleQuoted else .singleQuoted
  return (← s.keyed? c (.scalar style (String.ofList text)), rest)

/-- Adds a scalar that is a block of lines; behind it a key may begin. -/
def block? (s : Scanner) (folded : Bool) (rest : Cells) : Option (Scanner × Cells) := do
  let s ← s.dropKey?
  let (text, rest) ← Yaml.block? folded s.margin rest
  let style := if folded then Style.folded else .literal
  return ((s.add (.scalar style (String.ofList text))).allowKey true, rest)

/-- Adds a scalar without quotes; behind it a key may begin if it ends with its line. -/
def plain? (s : Scanner) (c : Cell) (rest : Cells) : Option (Scanner × Cells) := do
  let p ← Yaml.plain? s.inFlow s.margin (c :: rest)
  let s ← s.keyed? c (.scalar .plain (String.ofList p.text))
  return (s.allowKey p.lineEnded, p.rest)

/-- Adds the token that begins with a character. -/
def token? (s : Scanner) (c : Cell) (rest : Cells) : Option (Scanner × Cells) :=
  let spaced := atGap rest
  let only (s? : Option Scanner) : Option (Scanner × Cells) := s?.map fun s => (s, rest)
  if c.column = 0 && c.char = '%' then do
    let (t, rest) ← directive? rest
    return (← s.document? t, rest)
  else if atTriple '-' (c :: rest) then
    (s.document? .documentStart).map fun s => (s, rest.drop 2)
  else if atTriple '.' (c :: rest) then
    (s.document? .documentEnd).map fun s => (s, rest.drop 2)
  else
    match c.char with
    | '[' => only (s.openFlow? c .flowSequence)
    | '\x7b' => only (s.openFlow? c .flowMapping)
    | ']' => only (s.closeFlow? .flowSequenceEnd)
    | '\x7d' => only (s.closeFlow? .flowMappingEnd)
    | ',' => only s.comma?
    | '*' => do
        let (name, rest) ← anchor? rest
        return (← s.keyed? c (.aliasOf name), rest)
    | '&' => do
        let (name, rest) ← anchor? rest
        return (← s.keyed? c (.anchor name), rest)
    | '!' => do
        let (written, rest) ← shorthand? s.inFlow (c :: rest)
        return (← s.keyed? c (.tag written), rest)
    | '\'' => s.quoted? c false rest
    | '"' => s.quoted? c true rest
    | char =>
        if char = '-' && spaced then only (s.marked? c .blockSequence .item true)
        else if char = '?' && (s.inFlow || spaced) then
          only (s.marked? c .blockMapping .key !s.inFlow)
        else if char = ':' && (s.inFlow || spaced) then only (s.value? c)
        else if (char = '|' || char = '>') && !s.inFlow then s.block? (char = '>') rest
        else if startsPlain s.inFlow (c :: rest) then s.plain? c rest
        else none

/-- One step: drops the gap that comes next and adds the token behind it, with what it ends. -/
def next? (s : Scanner) (c : Cell) (rest : Cells) : Option (Scanner × Cells) := do
  let s ← s.forget? c
  (s.closeTo (c.column + 1)).token? c rest

/-- The tokens of a text whose end has been reached. -/
def finish? (s : Scanner) : Option (List Token) :=
  (s.closeTo 0).dropKey?.map fun s => s.found.reverse

/-- The tokens found so far and those of the characters that follow. -/
def run? : Nat → Scanner → Cells → Option (List Token)
  | 0, _, _ => none
  | fuel + 1, s, cells =>
      match skipGap s.inFlow s.keyAllowed false cells with
      | (_, []) => s.finish?
      | (keyAllowed, c :: rest) => do
          let (s, rest) ← (s.allowKey keyAllowed).next? c rest
          run? fuel s rest

end Scanner

/-- The tokens of a text. -/
def tokens? (cells : Cells) : Option (List Token) :=
  Scanner.run? (cells.length + 1) {} cells

end Yaml

end TraceReplay
