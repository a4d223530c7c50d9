/-
**Reading TOML documents.**

Every statement ends with its line; only brackets and triple quotes reach over line ends.

Main definitions:

* `Toml.text?` — texts in quotes;
* `Toml.word?` — numbers, truth values, dates and times;
* `Toml.key?` — keys with dots;
* `Toml.value?` — values, up to a depth of brackets;
* `Toml.parse?` — the document written by a text.
-/

import TraceReplay.Text.Radix
import TraceReplay.Toml.Statement

set_option relaxedAutoImplicit false
set_option autoImplicit false

namespace TraceReplay

namespace Toml

/-! ### Gaps -/

/-- Whether a character is a space within a line. -/
def isBlank (c : Char) : Bool := c = ' ' || c = '\t'

/-- Whether a character may stand in comments and between quotes. -/
def isProper (c : Char) : Bool := c = '\t' || (0x20 ≤ c.toNat && c.toNat ≠ 0x7f)

/-- Drops the spaces that come next. -/
def dropBlanks (cs : List Char) : List Char := cs.dropWhile isBlank

/-- Drops spaces, line ends and comments; `comment` says that a comment has begun. -/
def dropGaps? (comment : Bool) : List Char → Option (List Char)
  | [] => some []
  | c :: cs =>
      if c = '\n' then dropGaps? false cs
      else if comment then if isProper c then dropGaps? true cs else none
      else if isBlank c then dropGaps? false cs
      else if c = '#' then dropGaps? true cs
      else some (c :: cs)

/-- Drops the rest of a line on which nothing but a comment is left. -/
def endLine? (cs : List Char) : Option (List Char) :=
  let rest :=
    match dropBlanks cs with
    | '#' :: rest => rest.dropWhile isProper
    | rest => rest
  match rest with
  | [] => some []
  | '\n' :: rest => some rest
  | _ => none

/-! ### Texts -/

/-- The character named by a one-letter escape. -/
def shortEscape? : Char → Option Char
  | '"' => some '"'
  | '\\' => some '\\'
  | 'b' => some '\x08'
  | 'f' => some '\x0c'
  | 'n' => some '\n'
  | 'r' => some '\r'
  | 't' => some '\t'
  | _ => none

/-- What a backslash and the characters behind it stand for, and what follows.  Where a text may have
several lines, a backslash at the end of one joins it to the next line that is not blank. -/
def escape? (lines : Bool) : List Char → Option (List Char × List Char)
  | [] => none
  | 'u' :: cs => (Radix.char? 4 cs).map fun r => ([r.1], r.2)
  | 'U' :: cs => (Radix.char? 8 cs).map fun r => ([r.1], r.2)
  | c :: cs =>
      match shortEscape? c with
      | some x => some ([x], cs)
      | none =>
          match dropBlanks (c :: cs) with
          | '\n' :: rest =>
              if lines then some ([], rest.dropWhile fun c => isBlank c || c = '\n') else none
          | _ => none

/-- What the next character of a text stands for, and what follows.  Only double quotes give the
backslash a meaning. -/
def piece? (quote : Char) (lines : Bool) : List Char → Option (List Char × List Char)
  | [] => none
  | c :: cs =>
      if c = '\\' ∧ quote = '"' then escape? lines cs
      else if isProper c || (lines && c = '\n') then some ([c], cs)
      else none

/-- The end of a text, and what follows.  Of more than three quotes in a row up to two belong to a
text of several lines. -/
def closing? (quote : Char) (lines : Bool) (cs : List Char) : Option (List Char × List Char) :=
  let quotes := (cs.takeWhile (· = quote)).length
  if lines then
    if quotes < 3 then none
    else some (List.replicate (min quotes 5 - 3) quote, cs.drop (min quotes 5))
  else if quotes = 0 then none
  else some ([], cs.drop 1)

/-- The rest of a text, and what follows its closing quotes. -/
def content? (quote : Char) (lines : Bool) : Nat → List Char → Option (List Char × List Char)
  | 0, _ => none
  | fuel + 1, cs =>
      match closing? quote lines cs with
      | some r => some r
      | none => do
          let (front, rest) ← piece? quote lines cs
          let (more, rest) ← content? quote lines fuel rest
          return (front ++ more, rest)

/-- A text behind its opening quotes. -/
def textFrom? (quote : Char) (lines : Bool) (cs : List Char) : Option (String × List Char) :=
  (content? quote lines (cs.length + 1) cs).map fun r => (String.ofList r.1, r.2)

/-- A text of several lines behind its opening quotes, where a line end right behind them does not
count. -/
def linesFrom? (quote : Char) : List Char → Option (String × List Char)
  | '\n' :: cs => textFrom? quote true cs
  | cs => textFrom? quote true cs

/-- The text that comes next, and what follows. -/
def text? : List Char → Option (String × List Char)
  | '"' :: '"' :: '"' :: cs => linesFrom? '"' cs
  | '\'' :: '\'' :: '\'' :: cs => linesFrom? '\'' cs
  | '"' :: cs => textFrom? '"' false cs
  | '\'' :: cs => textFrom? '\'' false cs
  | _ => none

/-! ### Numbers -/

/-- Drops underscores, each of which has to stand between two digits. -/
def ungroup? (isDigit : Char → Bool) : List Char → Option (List Char)
  | [] => some []
  | c :: '_' :: d :: cs =>
      if isDigit c && isDigit d then (ungroup? isDigit (d :: cs)).map (c :: ·) else none
  | c :: cs => if c = '_' then none else (ungroup? isDigit cs).map (c :: ·)

/-- The number that grouped digits spell to a base. -/
def natural? (base : Nat) (cs : List Char) : Option Nat :=
  (ungroup? (fun c => (Radix.digitBelow? base c).isSome) cs).bind (Radix.value? base)

/-- Whether characters are decimal digits without leading zeros. -/
def isDecimal (cs : List Char) : Bool :=
  cs.all Char.isDigit && (cs.length = 1 || (1 < cs.length && cs.head? ≠ some '0'))

/-- A sign at the front, which may be missing, and what follows. -/
def sign : List Char → Bool × List Char
  | '-' :: cs => (true, cs)
  | '+' :: cs => (false, cs)
  | cs => (false, cs)

/-- The integer that a word writes: decimal with an optional sign, or to the base 16, 8 or 2 behind
a mark.  It has 64 bits with its sign. -/
def integerOfWord? (cs : List Char) : Option Int := do
  let n : Int ←
    match cs with
    | '0' :: 'x' :: ds => (natural? 16 ds).map Int.ofNat
    | '0' :: 'o' :: ds => (natural? 8 ds).map Int.ofNat
    | '0' :: 'b' :: ds => (natural? 2 ds).map Int.ofNat
    | cs => do
        let (negative, ds) := sign cs
        let ds ← ungroup? Char.isDigit ds
        let n ← if isDecimal ds then Radix.value? 10 ds else none
        pure (if negative then -n else n)
  if -9223372036854775808 ≤ n ∧ n ≤ 9223372036854775807 then some n else none

/-- Whether characters begin as a number with a point or an exponent does: with an integer, and with
a digit behind the point. -/
def isFractional (cs : List Char) : Bool :=
  let whole := cs.takeWhile Char.isDigit
  isDecimal whole &&
    match cs.drop whole.length with
    | '.' :: d :: _ => d.isDigit
    | c :: _ => c = 'e' || c = 'E'
    | [] => false

/-- The number that a word writes with a point or an exponent, or by name.  One above all finite
numbers is refused, one below them is the negative infinity. -/
def floatOfWord? (cs : List Char) : Option Float := do
  let (negative, ds) := sign cs
  let x ←
    if ds = ['i', 'n', 'f'] then some (1 / 0)
    else if ds = ['n', 'a', 'n'] then some (0 / 0)
    else do
      let ds ← ungroup? Char.isDigit ds
      if isFractional ds then
        (Binary64.readUnsigned? ds).filter fun x => negative || x.isFinite
      else none
  return if negative then -x else x

/-! ### Dates and times -/

/-- A number of exactly two digits at the front, below a limit, and what follows. -/
def twoDigits? (limit : Nat) : List Char → Option (Nat × List Char)
  | a :: b :: cs => (Radix.value? 10 [a, b]).bind fun n => if n < limit then some (n, cs) else none
  | _ => none

/-- Number of days of a month. -/
def daysOf (year month : Nat) : Nat :=
  if month = 2 then
    if year % 4 = 0 ∧ (year % 100 ≠ 0 ∨ year % 400 = 0) then 29 else 28
  else if [4, 6, 9, 11].contains month then 30
  else 31

/-- Drops a date. -/
def dropDate? (cs : List Char) : Option (List Char) := do
  let year ← if (cs.take 4).length = 4 then Radix.value? 10 (cs.take 4) else none
  match cs.drop 4 with
  | '-' :: cs =>
      let (month, cs) ← twoDigits? 13 cs
      match cs with
      | '-' :: cs =>
          let (day, cs) ← twoDigits? 32 cs
          if 1 ≤ month ∧ 1 ≤ day ∧ day ≤ daysOf year month then some cs else none
      | _ => none
  | _ => none

/-- Drops a time of day, which may have a fraction of a second. -/
def dropTime? (cs : List Char) : Option (List Char) := do
  let (_, cs) ← twoDigits? 24 cs
  match cs with
  | ':' :: cs =>
      let (_, cs) ← twoDigits? 60 cs
      match cs with
      | ':' :: cs =>
          let (_, cs) ← twoDigits? 61 cs
          match cs with
          | '.' :: d :: cs => if d.isDigit then some (cs.dropWhile Char.isDigit) else none
          | cs => some cs
      | _ => none
  | _ => none

/-- Drops the distance from universal time, which may be missing. -/
def dropOffset? : List Char → Option (List Char)
  | 'Z' :: cs | 'z' :: cs => some cs
  | '+' :: cs | '-' :: cs => do
      let (_, cs) ← twoDigits? 24 cs
      match cs with
      | ':' :: cs => (twoDigits? 60 cs).map Prod.snd
      | _ => none
  | cs => some cs

/-- Drops a date, a time, or both.  Between the two stands the letter T or a space. -/
def dropMoment? (cs : List Char) : Option (List Char) :=
  match dropDate? cs with
  | some (c :: rest) =>
      if c = 'T' ∨ c = 't' then (dropTime? rest).bind dropOffset?
      else if c = ' ' then
        match dropTime? rest with
        | some rest => dropOffset? rest
        | none => some (c :: rest)
      else some (c :: rest)
  | some [] => some []
  | none => dropTime? cs

/-! ### Values -/

/-- Whether a character may stand in a number. -/
def isWordChar (c : Char) : Bool := c.isAlphanum || ['+', '-', '_', '.'].contains c

/-- The value that a word writes. -/
def word? (cs : List Char) : Option Toml :=
  if cs = ['t', 'r', 'u', 'e'] then some (truth true)
  else if cs = ['f', 'a', 'l', 's', 'e'] then some (truth false)
  else
    match integerOfWord? cs with
    | some n => some (integer n)
    | none => (floatOfWord? cs).map float

/-- The value that comes next, no collection, and what follows. -/
def scalar? (cs : List Char) : Option (Toml × List Char) :=
  match dropMoment? cs with
  | some rest => some (moment, rest)
  | none =>
      match text? cs with
      | some (s, rest) => some (text s, rest)
      | none =>
          let word := cs.takeWhile isWordChar
          (word? word).map fun v => (v, cs.drop word.length)

/-- Whether a character may stand in a key without quotes. -/
def isKeyChar (c : Char) : Bool := c.isAlphanum || c = '_' || c = '-'

/-- A key without dots, and what follows. -/
def keyPart? : List Char → Option (String × List Char)
  | '"' :: cs => textFrom? '"' false cs
  | '\'' :: cs => textFrom? '\'' false cs
  | cs =>
      let part := cs.takeWhile isKeyChar
      if part = [] then none else some (String.ofList part, cs.drop part.length)

/-- A key as a path and its last part, and what follows; it has at most a given number of parts. -/
def keyOf? : Nat → List Char → Option ((List String × String) × List Char)
  | 0, _ => none
  | parts + 1, cs => do
      let (part, rest) ← keyPart? (dropBlanks cs)
      match dropBlanks rest with
      | '.' :: rest =>
          let ((path, key), rest) ← keyOf? parts rest
          return ((part :: path, key), rest)
      | rest => return (([], part), rest)

/-- Number of brackets that may be open at a time, and of parts that a key may have. -/
def depth : Nat := 79

/-- A key as a path and its last part, and what follows. -/
def key? : List Char → Option ((List String × String) × List Char) := keyOf? depth

section Collections

variable (valueOf? : List Char → Option (Toml × List Char))

/-- A key and its value, and what follows. -/
def keyed? (cs : List Char) : Option ((List String × String × Toml) × List Char) := do
  let ((path, key), rest) ← key? cs
  match rest with
  | '=' :: rest =>
      let (v, rest) ← valueOf? (dropBlanks rest)
      return ((path, key, v), rest)
  | _ => none

/-- The items up to the closing bracket, behind those read so far, and what follows. -/
def items? : Nat → List Toml → List Char → Option (List Toml × List Char)
  | 0, _, _ => none
  | fuel + 1, done, cs => do
      match ← dropGaps? false cs with
      | ']' :: rest => return (done, rest)
      | cs =>
          let (v, rest) ← valueOf? cs
          match ← dropGaps? false rest with
          | ',' :: rest => items? fuel (done ++ [v]) rest
          | ']' :: rest => return (done ++ [v], rest)
          | _ => none

/-- The entries up to the closing brace, behind those read so far, and what follows.  There is at
least one, and no comma behind the last. -/
def entries? : Nat → List (List String × String × Toml) → List Char →
    Option (List (List String × String × Toml) × List Char)
  | 0, _, _ => none
  | fuel + 1, done, cs => do
      let (e, rest) ← keyed? valueOf? cs
      match dropBlanks rest with
      | ',' :: rest => entries? fuel (done ++ [e]) rest
      | '\x7d' :: rest => return (done ++ [e], rest)
      | _ => none

end Collections

/-- The value that comes next, with at most a given depth of brackets, and what follows. -/
def value? : Nat → List Char → Option (Toml × List Char)
  | depth + 1, '[' :: cs => do
      let (items, rest) ← items? (value? depth) (cs.length + 1) [] cs
      return (array items, rest)
  | depth + 1, '\x7b' :: cs => do
      let (entries, rest) ←
        match dropBlanks cs with
        | '\x7d' :: rest => some ([], rest)
        | cs => entries? (value? depth) (cs.length + 1) [] cs
      return (← ofEntries? entries, rest)
  | _, cs => scalar? cs

/-! ### Documents -/

/-- The header or entry that a line holds, and what follows on the line. -/
def statement? (cs : List Char) : Option (Statement × List Char) :=
  match dropBlanks cs with
  | '[' :: '[' :: rest => do
      let ((path, key), rest) ← key? rest
      match rest with
      | ']' :: ']' :: rest => return (.opensNext path key, rest)
      | _ => none
  | '[' :: rest => do
      let ((path, key), rest) ← key? rest
      match rest with
      | ']' :: rest => return (.opens path key, rest)
      | _ => none
  | cs => (keyed? (value? depth) cs).map fun ((path, key, v), rest) => (.entry path key v, rest)

/-- The statements of a document. -/
def statements? : Nat → List Char → Option (List Statement)
  | 0, _ => none
  | _ + 1, [] => some []
  | fuel + 1, cs =>
      match endLine? cs with
      | some rest => statements? fuel rest
      | none => do
          let (s, rest) ← statement? cs
          let rest ← endLine? rest
          return s :: (← statements? fuel rest)

/-- Every line end of two characters as one. -/
def unifyLineEnds : List Char → List Char
  | '\r' :: '\n' :: cs => '\n' :: unifyLineEnds cs
  | c :: cs => c :: unifyLineEnds cs
  | [] => []

/-- The document written by a text. -/
def parse? (s : String) : Option Toml :=
  let cs :=
    match s.toList with
    | '\ufeff' :: cs => unifyLineEnds cs
    | cs => unifyLineEnds cs
  (statements? (cs.length + 1) cs).bind ofStatements?

end Toml

end TraceReplay
