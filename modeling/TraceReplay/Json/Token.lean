/-
**The words of a JSON document.**

A document is a sequence of tokens: brackets, commas, colons, the three literal words, numbers and
texts.  Each token has one written form, which `Token.chars` gives; the scanner accepts every form
that the grammar allows.

Main definitions:

* `Json.Token` — the tokens;
* `Json.Token.chars` — the written form of a token;
* `Json.Token.scan?` — the token at the front of some characters, with what follows it;
* `Json.tokens?` — all tokens of a document's characters.

Main results:

* `Json.Token.scan?_length` — a token has at least one character.
-/

import TraceReplay.Json.Basic
import TraceReplay.Text.Radix

set_option relaxedAutoImplicit false
set_option autoImplicit false

namespace TraceReplay

namespace Json

open Binary64 (scanDigits)

/-- A word of a document. -/
inductive Token where
  | openArray
  | closeArray
  | openObject
  | closeObject
  | comma
  | colon
  | null
  | bool (b : Bool)
  | number (n : Number)
  | string (text : Option String)
  deriving DecidableEq, Repr

/-- The characters that may stand between tokens. -/
def isGap (c : Char) : Bool := c = ' ' || c = '\n' || c = '\t' || c = '\r'

/-! ### Texts -/

/-- A piece of a text: a character, or the UTF-16 unit that a numeric escape names. -/
inductive Piece where
  | char (c : Char)
  | unit (u : Nat)
  deriving DecidableEq, Repr

/-- The unit named by four hexadecimal digits. -/
def hexUnit? (a b c d : Char) : Option Nat :=
  match Radix.digit? a, Radix.digit? b, Radix.digit? c, Radix.digit? d with
  | some a, some b, some c, some d => some (((a * 16 + b) * 16 + c) * 16 + d)
  | _, _, _, _ => none

/-- The character named by a one-letter escape. -/
def shortEscape? : Char → Option Char
  | '"' => some '"'
  | '\\' => some '\\'
  | '/' => some '/'
  | 'b' => some '\x08'
  | 'f' => some '\x0c'
  | 'n' => some '\n'
  | 'r' => some '\r'
  | 't' => some '\t'
  | _ => none

/-- The pieces of a text up to its closing quote, and what follows. -/
def pieces? : List Char → Option (List Piece × List Char)
  | [] => none
  | '"' :: rest => some ([], rest)
  | '\\' :: 'u' :: a :: b :: c :: d :: rest =>
      match hexUnit? a b c d, pieces? rest with
      | some u, some (ps, rest) => some (.unit u :: ps, rest)
      | _, _ => none
  | '\\' :: e :: rest =>
      match shortEscape? e, pieces? rest with
      | some c, some (ps, rest) => some (.char c :: ps, rest)
      | _, _ => none
  | c :: rest =>
      if c.toNat < 0x20 ∨ c = '\\' then none
      else (pieces? rest).map fun r => (.char c :: r.1, r.2)

theorem pieces?_length {cs rest : List Char} {ps : List Piece} (h : pieces? cs = some (ps, rest)) :
    rest.length < cs.length := by
  fun_induction pieces? cs generalizing ps rest with
  | case1 => simp at h
  | case2 cs => simp at h; simp [h.2]
  | case3 a b c d cs u ps' rest' hp hu ih =>
    simp at h
    have := ih hp
    rw [← h.2]
    simp only [List.length_cons]
    omega
  | case4 => simp at h
  | case5 e cs hn c ps' rest' hp hc ih =>
    simp at h
    have := ih hp
    rw [← h.2]
    simp only [List.length_cons]
    omega
  | case6 => simp at h
  | case7 => simp at h
  | case8 c cs hq hu he hc ih =>
    obtain ⟨⟨ps', rest'⟩, hp, he⟩ := Option.map_eq_some_iff.1 h
    have := ih hp
    cases he
    simp only [List.length_cons]
    omega

/-- Whether a unit is the first half of a surrogate pair. -/
def isLeading (u : Nat) : Bool := 0xd800 ≤ u && u < 0xdc00

/-- Whether a unit is the second half of a surrogate pair. -/
def isTrailing (u : Nat) : Bool := 0xdc00 ≤ u && u < 0xe000

/-- The characters spelled by pieces, unless a half of a surrogate pair stands alone. -/
def spell? : List Piece → Option (List Char)
  | [] => some []
  | .char c :: ps => (spell? ps).map (c :: ·)
  | .unit u :: ps =>
      if isLeading u then
        match ps with
        | .unit v :: ps =>
            if isTrailing v then
              (spell? ps).map (Char.ofNat (0x10000 + (u - 0xd800) * 0x400 + (v - 0xdc00)) :: ·)
            else none
        | _ => none
      else if isTrailing u then none
      else (spell? ps).map (Char.ofNat u :: ·)

/-- The hexadecimal digit of a number below sixteen, in lower case. -/
def hexChar (n : Nat) : Char := Nat.digitChar n

/-- A character as it is written in a text: only quotes, backslashes and controls are escaped. -/
def charForm (c : Char) : List Char :=
  match c with
  | '"' => ['\\', '"']
  | '\\' => ['\\', '\\']
  | '\x08' => ['\\', 'b']
  | '\t' => ['\\', 't']
  | '\n' => ['\\', 'n']
  | '\x0c' => ['\\', 'f']
  | '\r' => ['\\', 'r']
  | c =>
      if c.toNat < 0x20 then ['\\', 'u', '0', '0', hexChar (c.toNat / 16), hexChar (c.toNat % 16)]
      else [c]

/-- The written form of a text, closing quote included.  A text that spells nothing is written as
half of a surrogate pair. -/
def textForm : Option String → List Char
  | none => ['\\', 'u', 'd', '8', '0', '0', '"']
  | some s => s.toList.flatMap charForm ++ ['"']

/-! ### Numbers -/

/-- A minus sign, if one stands in front. -/
def scanSign : List Char → Bool × List Char
  | '-' :: cs => (true, cs)
  | cs => (false, cs)

theorem scanSign_length (cs : List Char) : (scanSign cs).2.length ≤ cs.length := by
  fun_cases scanSign cs <;> simp

/-- The digits in front of the point: one zero, or digits that do not start with zero. -/
def scanWhole? (cs : List Char) : Option (Nat × List Char) :=
  match scanDigits cs with
  | ([], _) => none
  | ([d], rest) => some (d.val, rest)
  | (d :: ds, rest) => if d.val = 0 then none else some (Decimal.value (d :: ds), rest)

theorem scanWhole?_length {cs rest : List Char} {n : Nat} (h : scanWhole? cs = some (n, rest)) :
    rest.length < cs.length := by
  have hl := Binary64.scanDigits_length cs
  grind [scanWhole?]

/-- The digits behind a point, if a point follows. -/
def scanFraction? : List Char → Option (List Digit × List Char)
  | '.' :: cs =>
      match scanDigits cs with
      | ([], _) => none
      | (ds, rest) => some (ds, rest)
  | cs => some ([], cs)

theorem scanFraction?_length {cs rest : List Char} {ds : List Digit}
    (h : scanFraction? cs = some (ds, rest)) : rest.length ≤ cs.length := by
  revert h
  fun_cases scanFraction? cs with
  | case1 => simp
  | case2 cs ds' rest' h' h'' =>
    have hl := Binary64.scanDigits_length cs
    rintro ⟨⟩
    simp_all
    omega
  | case3 => rintro ⟨⟩; simp

/-- The digits of an exponent, as an integer of the given sign. -/
def scanPower? (negative : Bool) (cs : List Char) : Option (Option Int × List Char) :=
  match scanDigits cs with
  | ([], _) => none
  | (ds, rest) =>
      let n : Int := Decimal.value ds
      some (some (if negative then -n else n), rest)

theorem scanPower?_length {negative : Bool} {cs rest : List Char} {e : Option Int}
    (h : scanPower? negative cs = some (e, rest)) : rest.length < cs.length := by
  have hl := Binary64.scanDigits_length cs
  revert h
  fun_cases scanPower? negative cs with
  | case1 => simp
  | case2 ds rest' h' h'' n => 
    rintro ⟨⟩
    have : 0 < ds.length := List.length_pos_iff.2 h'
    rw [h''] at hl
    simp only at hl
    omega

/-- The exponent, if one follows. -/
def scanExponent? : List Char → Option (Option Int × List Char)
  | c :: cs =>
      if c = 'e' ∨ c = 'E' then
        match cs with
        | '+' :: cs => scanPower? false cs
        | '-' :: cs => scanPower? true cs
        | cs => scanPower? false cs
      else some (none, c :: cs)
  | [] => some (none, [])

theorem scanExponent?_length {cs rest : List Char} {e : Option Int}
    (h : scanExponent? cs = some (e, rest)) : rest.length ≤ cs.length := by
  revert h
  fun_cases scanExponent? cs with
  | case1 c cs hc => 
    intro h
    have := scanPower?_length h
    simp only [List.length_cons]; omega
  | case2 c cs hc => 
    intro h
    have := scanPower?_length h
    simp only [List.length_cons]; omega
  | case3 c cs hc =>
    intro h
    have := scanPower?_length h
    simp only [List.length_cons]; omega
  | case4 => rintro ⟨⟩; simp
  | case5 => rintro ⟨⟩; simp

/-- The number at the front of some characters, and what follows. -/
def scanNumber? (cs : List Char) : Option (Number × List Char) :=
  let (negative, cs) := scanSign cs
  (scanWhole? cs).bind fun (whole, cs) =>
    (scanFraction? cs).bind fun (fraction, cs) =>
      (scanExponent? cs).map fun (exponent, cs) => (⟨negative, whole, fraction, exponent⟩, cs)

theorem scanNumber?_length {cs rest : List Char} {n : Number}
    (h : scanNumber? cs = some (n, rest)) : rest.length < cs.length := by
  simp only [scanNumber?, Option.bind_eq_some_iff, Option.map_eq_some_iff] at h
  obtain ⟨⟨whole, r₁⟩, h₁, ⟨fraction, r₂⟩, h₂, ⟨e, r₃⟩, h₃, h₄⟩ := h
  have hs := scanSign_length cs
  have := scanWhole?_length h₁
  have := scanFraction?_length h₂
  have := scanExponent?_length h₃
  cases h₄
  simp only at *
  omega

/-- The written form of an exponent, which always has a sign. -/
def exponentForm : Option Int → List Char
  | none => []
  | some e =>
      let digits := (Decimal.digits e.natAbs).map Digit.char
      if e < 0 then 'e' :: '-' :: digits else 'e' :: '+' :: digits

/-- The written form of a number. -/
def Number.form (n : Number) : List Char :=
  (if n.negative then ['-'] else []) ++ (Decimal.digits n.whole).map Digit.char
    ++ (if n.fraction = [] then [] else '.' :: n.fraction.map Digit.char)
    ++ exponentForm n.exponent

/-! ### Tokens -/

namespace Token

/-- The written form of a token. -/
def chars : Token → List Char
  | openArray => ['[']
  | closeArray => [']']
  | openObject => ['\x7b']
  | closeObject => ['\x7d']
  | comma => [',']
  | colon => [':']
  | null => ['n', 'u', 'l', 'l']
  | bool true => ['t', 'r', 'u', 'e']
  | bool false => ['f', 'a', 'l', 's', 'e']
  | number n => n.form
  | string s => '"' :: textForm s

/-- The token at the front of some characters, and what follows it. -/
def scan? : List Char → Option (Token × List Char)
  | '[' :: rest => some (openArray, rest)
  | ']' :: rest => some (closeArray, rest)
  | '\x7b' :: rest => some (openObject, rest)
  | '\x7d' :: rest => some (closeObject, rest)
  | ',' :: rest => some (comma, rest)
  | ':' :: rest => some (colon, rest)
  | 'n' :: 'u' :: 'l' :: 'l' :: rest => some (null, rest)
  | 't' :: 'r' :: 'u' :: 'e' :: rest => some (bool true, rest)
  | 'f' :: 'a' :: 'l' :: 's' :: 'e' :: rest => some (bool false, rest)
  | '"' :: rest =>
      (pieces? rest).map fun r => (string ((spell? r.1).map String.ofList), r.2)
  | cs => (scanNumber? cs).map fun r => (number r.1, r.2)

/-- A token has at least one character. -/
theorem scan?_length {cs rest : List Char} {t : Token} (h : scan? cs = some (t, rest)) :
    rest.length < cs.length := by
  revert h
  fun_cases scan? cs with
  | case10 cs =>
    intro h
    obtain ⟨⟨ps, r⟩, hp, he⟩ := Option.map_eq_some_iff.1 h
    have := pieces?_length hp
    cases he
    simp only [List.length_cons]; omega
  | case11 cs =>
    intro h
    obtain ⟨⟨n, r⟩, hp, he⟩ := Option.map_eq_some_iff.1 h
    cases he
    exact scanNumber?_length hp
  | _ => rintro ⟨⟩; simp only [List.length_cons]; omega

end Token

/-- The tokens of a document's characters, with gaps between them allowed. -/
def tokens? (cs : List Char) : Option (List Token) :=
  match cs with
  | [] => some []
  | c :: cs =>
      if isGap c then tokens? cs
      else
        match _h : Token.scan? (c :: cs) with
        | none => none
        | some (t, rest) => (tokens? rest).map (t :: ·)
termination_by cs.length
decreasing_by
  · simp
  · exact Token.scan?_length _h

end Json

end TraceReplay
