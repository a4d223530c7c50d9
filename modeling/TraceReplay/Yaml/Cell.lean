/-
**The characters of a YAML text and where they stand.**

Indentation counts in YAML, so every character is kept with its line and column.  Line ends are
newlines, carriage returns, the two together, the next-line character and the two Unicode
separators; the separators keep their identity, all others count as one newline.

Main definitions:

* `Yaml.Cell`, `Yaml.cells?` — a character with its place, and the characters of a text that may
  stand in a document;
* `Yaml.isBlank`, `Yaml.isBreak` — spaces within a line, and line ends;
* `Yaml.atGap`, `Yaml.atMarker` — what comes next;
* `Yaml.fold` — what a gap between two words of a scalar stands for.
-/

set_option relaxedAutoImplicit false
set_option autoImplicit false

namespace TraceReplay

namespace Yaml

/-- A character with its place. -/
structure Cell where
  char : Char
  line : Nat
  column : Nat
  deriving DecidableEq, Repr

/-- Characters with their places, in the order of the text. -/
abbrev Cells := List Cell

/-! ### Characters -/

/-- Whether a character may stand in a document. -/
def isAllowed (c : Char) : Bool :=
  let n := c.toNat
  n = 0x9 || n = 0xa || n = 0xd || (0x20 ≤ n && n ≤ 0x7e) || n = 0x85
    || (0xa0 ≤ n && n ≤ 0xfffd) || 0x10000 ≤ n

/-- Whether a character is a space within a line. -/
def isBlank (c : Char) : Bool := c = ' ' || c = '\t'

/-- Whether a character ends a line. -/
def isBreak (c : Char) : Bool :=
  c = '\n' || c = '\r' || c = '\u0085' || c = '\u2028' || c = '\u2029'

/-- Whether a character stands between words. -/
def isGap (c : Char) : Bool := isBlank c || isBreak c

/-- Whether a character may stand in a name. -/
def isNameChar (c : Char) : Bool := c.isAlphanum || c = '_' || c = '-'

/-- Whether a character separates things inside brackets. -/
def isFlowMark (c : Char) : Bool := [',', '[', ']', '\x7b', '\x7d'].contains c

/-! ### Places -/

/-- A line end as it counts in a scalar. -/
def lineEnd (c : Char) : Char := if c = '\u2028' || c = '\u2029' then c else '\n'

/-- Characters with their places, where the first stands in a given one. -/
def place (line column : Nat) : List Char → Cells
  | [] => []
  | '\r' :: '\n' :: cs => ⟨'\n', line, column⟩ :: place (line + 1) 0 cs
  | c :: cs =>
      if isBreak c then ⟨lineEnd c, line, column⟩ :: place (line + 1) 0 cs
      else ⟨c, line, column⟩ :: place line (column + 1) cs

/-- The characters of a text with their places, if all of them may stand in a document. -/
def cells? (text : String) : Option Cells :=
  if text.toList.all isAllowed then some (place 0 0 text.toList) else none

/-- The characters alone. -/
def chars (cells : Cells) : List Char := cells.map Cell.char

/-- Whether a character between words comes next, or the end of the text. -/
def atGap : Cells → Bool
  | [] => true
  | c :: _ => isGap c.char

/-- Whether a line end comes next, or the end of the text. -/
def atLineEnd : Cells → Bool
  | [] => true
  | c :: _ => isBreak c.char

/-- Whether one of some characters comes next. -/
def atOneOf (cs : List Char) : Cells → Bool
  | [] => false
  | c :: _ => cs.contains c.char

/-- Whether a line begins with a character thrice and a gap. -/
def atTriple (mark : Char) (cells : Cells) : Bool :=
  (cells.head?.map Cell.column) = some 0 && chars (cells.take 3) = [mark, mark, mark]
    && atGap (cells.drop 3)

/-- Whether a line begins with the marker that begins or ends a document. -/
def atMarker (cells : Cells) : Bool := atTriple '-' cells || atTriple '.' cells

/-- The part in front of the first character that fails a test, and what follows. -/
def spanOf (test : Char → Bool) (cells : Cells) : Cells × Cells :=
  (cells.takeWhile fun c => test c.char, cells.dropWhile fun c => test c.char)

/-- Drops the spaces that come next. -/
def dropBlanks (cells : Cells) : Cells := (spanOf isBlank cells).2

/-- Drops the rest of a line on which nothing but a comment is left, and its end. -/
def endLine? (cells : Cells) : Option Cells :=
  let rest := dropBlanks cells
  let rest := if atOneOf ['#'] rest then (spanOf (fun c => !isBreak c) rest).2 else rest
  if atLineEnd rest then some (rest.drop 1) else none

/-- Whether a gap reaches over a line end. -/
def hasBreak (gap : Cells) : Bool := gap.any fun c => isBreak c.char

/-- What a gap between two words of a scalar stands for.  Spaces within a line stand for themselves.
A single line end, with the spaces around it, is one space; of several the first is left out.  A
separator is kept in any case.  `joined` says that the end of the line in front does not count. -/
def fold (joined : Bool) (gap : Cells) : List Char :=
  let breaks := (chars gap).filter isBreak
  if joined then breaks
  else
    match breaks with
    | [] => chars gap
    | ['\n'] => [' ']
    | '\n' :: more => more
    | breaks => breaks

end Yaml

end TraceReplay
