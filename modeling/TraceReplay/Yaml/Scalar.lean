/-
**Scalars of YAML documents.**

A scalar is written without quotes, in single or double quotes, or as a block of lines.  Readers take
what comes next and give the text with the characters that follow; `margin` is the least column in
which the lines of a scalar may go on.

Main definitions:

* `Yaml.Style` — the ways to write a scalar;
* `Yaml.plain?` — scalars without quotes;
* `Yaml.quoted?` — scalars in quotes;
* `Yaml.block?` — scalars as blocks of lines.
-/

import TraceReplay.Text.Radix
import TraceReplay.Yaml.Cell

set_option relaxedAutoImplicit false
set_option autoImplicit false

namespace TraceReplay

namespace Yaml

/-- The ways to write a scalar. -/
inductive Style where
  /-- Without quotes. -/
  | plain
  | singleQuoted
  | doubleQuoted
  /-- A block of lines, kept as they are. -/
  | literal
  /-- A block of lines that are joined. -/
  | folded
  deriving DecidableEq, Repr

/-! ### Without quotes -/

/-- The characters that cannot begin a scalar without quotes. -/
def indicators : List Char :=
  ['-', '?', ':', ',', '[', ']', '\x7b', '\x7d', '#', '&', '*', '!', '|', '>', '\'', '"', '%', '@',
    '\x60']

/-- Whether a scalar without quotes begins here.  A dash begins one if something stands right behind
it, and outside brackets a question mark and a colon do so too. -/
def startsPlain (flow : Bool) : Cells → Bool
  | [] => false
  | c :: rest =>
      if c.char = '-' then !atOneOf [' ', '\t'] rest
      else if c.char = '?' || c.char = ':' then !flow && !atGap rest
      else !isGap c.char && !indicators.contains c.char

/-- The next word of a scalar without quotes, and what follows.  Inside brackets a colon must not
stand right in front of another mark. -/
def word? (flow : Bool) : Cells → Option (List Char × Cells)
  | [] => some ([], [])
  | c :: rest =>
      if isGap c.char then some ([], c :: rest)
      else if flow && c.char = ':' && atOneOf [',', '?', '[', ']', '\x7b', '\x7d'] rest then none
      else if (c.char = ':' && atGap rest) || (flow && isFlowMark c.char) then some ([], c :: rest)
      else (word? flow rest).map fun r => (c.char :: r.1, r.2)

/-- What a reader of scalars without quotes finds: the text, whether the gap behind it reaches over a
line end, and what follows the gap. -/
structure Plain where
  text : List Char
  lineEnded : Bool
  rest : Cells

/-- The words of a scalar without quotes, behind a gap that stands for `before`.  It ends where a
comment or a marker begins, where a word is empty, and outside brackets at a line that stands left of
the margin.  Tabs do not indent. -/
def words? (flow : Bool) (margin : Nat) : Nat → List Char → Bool → Cells → Option Plain
  | 0, _, _, _ => none
  | fuel + 1, before, lineEnded, cells =>
      if atMarker cells || atOneOf ['#'] cells then some ⟨[], lineEnded, cells⟩
      else do
        match ← word? flow cells with
        | ([], _) => return ⟨[], lineEnded, cells⟩
        | (word, rest) =>
            let (gap, next) := spanOf isGap rest
            let indented := (gap.dropWhile fun c => !isBreak c.char).all fun c =>
              c.char ≠ '\t' || margin ≤ c.column
            if !indented then none
            let outside := !flow && next.head?.any fun c => c.column < margin
            let more ←
              if gap = [] || outside then some ⟨[], hasBreak gap, next⟩
              else words? flow margin fuel (fold false gap) (hasBreak gap) next
            return { more with text := before ++ word ++ more.text }

/-- A scalar without quotes. -/
def plain? (flow : Bool) (margin : Nat) (cells : Cells) : Option Plain :=
  words? flow margin (cells.length + 1) [] false cells

/-! ### In quotes -/

/-- The character that a one-letter escape names. -/
def namedEscape? : Char → Option Char
  | '0' => some '\x00'
  | 'a' => some '\x07'
  | 'b' => some '\x08'
  | 't' | '\t' => some '\t'
  | 'n' => some '\n'
  | 'v' => some '\x0b'
  | 'f' => some '\x0c'
  | 'r' => some '\r'
  | 'e' => some '\x1b'
  | ' ' => some ' '
  | '"' => some '"'
  | '/' => some '/'
  | '\\' => some '\\'
  | 'N' => some '\u0085'
  | '_' => some '\u00a0'
  | 'L' => some '\u2028'
  | 'P' => some '\u2029'
  | _ => none

/-- Number of hexadecimal digits behind an escape letter. -/
def escapeWidth? : Char → Option Nat
  | 'x' => some 2
  | 'u' => some 4
  | 'U' => some 8
  | _ => none

/-- The character that stands behind a backslash by its name or its number, and what follows. -/
def escape? : Cells → Option (Char × Cells)
  | [] => none
  | c :: rest =>
      match escapeWidth? c.char with
      | some width => (Radix.char? width (chars (rest.take width))).map fun r => (r.1, rest.drop width)
      | none => (namedEscape? c.char).map fun x => (x, rest)

/-- The next piece of a scalar in quotes, and what follows.  In single quotes a quote is written
twice; in double quotes a backslash begins an escape, and at the end of a line joins it to the
next. -/
def piece? (double : Bool) : Cells → Option (List Char × Cells)
  | [] => none
  | c :: rest =>
      if isGap c.char then
        let (gap, next) := spanOf isGap (c :: rest)
        some (fold false gap, next)
      else if double && c.char = '\\' then
        match rest with
        | [] => none
        | e :: more =>
            if isBreak e.char then
              let (gap, next) := spanOf isGap more
              some (fold true gap, next)
            else (escape? rest).map fun r => ([r.1], r.2)
      else if !double && c.char = '\'' then some (['\''], rest.drop 1)
      else some ([c.char], rest)

/-- Whether the quote that ends a scalar comes next. -/
def atClosing (double : Bool) (cells : Cells) : Bool :=
  if double then atOneOf ['"'] cells else atOneOf ['\''] cells && !atOneOf ['\''] (cells.drop 1)

/-- The rest of a scalar in quotes, and what follows the closing one.  No line of it begins with a
marker. -/
def content? (double : Bool) : Nat → Cells → Option (List Char × Cells)
  | 0, _ => none
  | fuel + 1, cells =>
      if atMarker cells then none
      else if atClosing double cells then some ([], cells.drop 1)
      else do
        let (piece, rest) ← piece? double cells
        let (more, rest) ← content? double fuel rest
        return (piece ++ more, rest)

/-- A scalar behind its opening quote, and what follows the closing one. -/
def quoted? (double : Bool) (cells : Cells) : Option (List Char × Cells) :=
  content? double (cells.length + 1) cells

/-! ### As a block of lines -/

/-- What becomes of the line ends at the end of a block. -/
inductive Chomping where
  /-- One is kept. -/
  | clip
  /-- None is kept. -/
  | strip
  /-- All are kept. -/
  | keep
  deriving DecidableEq, Repr

/-- How the line ends at the end are treated and by how much the lines are indented, if the header of
a block says so, and what follows. -/
structure Header where
  chomping : Chomping
  indentation : Option Nat
  rest : Cells

/-- The treatment of line ends that a sign asks for. -/
def Chomping.ofSign? (c : Char) : Option Chomping :=
  if c = '+' then some .keep else if c = '-' then some .strip else none

/-- A sign that comes next, and what follows. -/
def sign? : Cells → Option (Chomping × Cells)
  | [] => none
  | c :: rest => (Chomping.ofSign? c.char).map fun chomping => (chomping, rest)

/-- A digit that comes next, and what follows; zero is refused. -/
def width? : Cells → Option (Option Nat × Cells)
  | [] => some (none, [])
  | c :: rest =>
      if !c.char.isDigit then some (none, c :: rest)
      else if c.char = '0' then none
      else some (some (c.char.toNat - 48), rest)

/-- The header of a block: a sign and a digit in either order, and the rest of the line. -/
def header? (cells : Cells) : Option Header := do
  match sign? cells with
  | some (chomping, rest) =>
      let (width, rest) ← width? rest
      return ⟨chomping, width, ← endLine? rest⟩
  | none =>
      let (width, rest) ← width? cells
      match if width.isSome then sign? rest else none with
      | some (chomping, rest) => return ⟨chomping, width, ← endLine? rest⟩
      | none => return ⟨.clip, width, ← endLine? rest⟩

/-- The empty lines in front of a line of a block. -/
structure Lead where
  /-- The line ends. -/
  breaks : List Char
  /-- The column behind the longest indentation found. -/
  column : Nat
  rest : Cells

/-- Drops empty lines and the indentation of the line behind them.  The indentation ends in a given
column if that is known; tabs do not indent. -/
def lead? (width : Option Nat) : Cells → Option Lead
  | [] => some ⟨[], 0, []⟩
  | c :: rest =>
      let inside := (width.map fun w => decide (c.column < w)).getD true
      if inside && c.char = ' ' then lead? width rest
      else if inside && c.char = '\t' then none
      else if isBreak c.char then
        (lead? width rest).map fun l => ⟨c.char :: l.breaks, max c.column l.column, l.rest⟩
      else some ⟨[], c.column, c :: rest⟩

/-- The lines of a block that stand in a column, and the line ends behind them. -/
structure Lines where
  text : List Char
  /-- The end of the last line. -/
  lastBreak : List Char
  /-- The ends of the empty lines behind it. -/
  breaks : List Char
  rest : Cells

/-- What stands between two lines of a block: the end of the first and those of the empty lines
behind it.  Where lines are joined a single newline is a space, and of several the first is left out,
unless one of the two lines begins with a space. -/
def between (joined : Bool) (lastBreak breaks : List Char) : List Char :=
  if joined && lastBreak = ['\n'] then if breaks = [] then [' '] else breaks
  else lastBreak ++ breaks

/-- The lines of a block that stand in a column, behind a line with given line ends; `spaced` says
that it begins with a space. -/
def lines? (folded : Bool) (width : Nat) :
    Nat → Bool → List Char → List Char → Cells → Option Lines
  | 0, _, _, _, _ => none
  | fuel + 1, spaced, lastBreak, breaks, cells =>
      if (cells.head?.map Cell.column) ≠ some width then some ⟨[], lastBreak, breaks, cells⟩
      else do
        let blank := atOneOf [' ', '\t'] cells
        let (line, rest) := spanOf (fun c => !isBreak c) cells
        let lead ← lead? (some width) (rest.drop 1)
        let more ← lines? folded width fuel blank (chars (rest.take 1)) lead.breaks lead.rest
        let front := between (folded && !spaced && !blank) lastBreak breaks
        return { more with text := front ++ chars line ++ more.text }

/-- A scalar behind the sign of its block, and what follows.  Without a digit in the header its lines
stand as far right as the first of them, or an emptier line in front of it, but not left of the
margin. -/
def block? (folded : Bool) (margin : Nat) (cells : Cells) : Option (List Char × Cells) := do
  let header ← header? cells
  let known := header.indentation.map fun n => (margin - 1) + n
  let lead ← lead? known header.rest
  let width := known.getD (max (max lead.column margin) 1)
  let lines ← lines? folded width (cells.length + 1) false [] lead.breaks lead.rest
  let tail :=
    match header.chomping with
    | .strip => []
    | .clip => lines.lastBreak
    | .keep => lines.lastBreak ++ lines.breaks
  return (lines.text ++ tail, lines.rest)

end Yaml

end TraceReplay
