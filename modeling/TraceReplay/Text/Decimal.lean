/-
**Decimal numerals of natural numbers.**

Ids, ticks and sizes are written in plain decimal, without sign or leading zeros.  They are read
back from a wider grammar (an optional plus sign, then one or more digits) into counters below a
limit, and a reading that fails says which of three things went wrong first, from the left.

Main definitions:

* `Digit` — a decimal digit, with its character;
* `Decimal.digits`, `Decimal.value` — the digits of a number and the number of some digits;
* `Decimal.write` — the numeral of a number;
* `Decimal.read` — the number of a numeral, or the first `Decimal.Misread`.

Main results:

* `Decimal.value_digits` — the digits of a number spell that number.
-/

set_option relaxedAutoImplicit false
set_option autoImplicit false

namespace TraceReplay

/-- A decimal digit. -/
abbrev Digit := Fin 10

namespace Digit

/-- The character of a digit. -/
def char (d : Digit) : Char := Char.ofNat (48 + d)

/-- The digit an ASCII digit character stands for. -/
def ofChar? (c : Char) : Option Digit :=
  if c.isDigit then some (Fin.ofNat 10 (c.toNat - 48)) else none

/-- The digit zero. -/
def zero : Digit := ⟨0, by decide⟩

theorem ofChar?_char : ∀ d : Digit, ofChar? d.char = some d := by decide

end Digit

namespace Decimal

/-! ### Digits -/

/-- The number spelled by digits, most significant first, after the digits of `acc`. -/
def valueFrom (acc : Nat) (ds : List Digit) : Nat := ds.foldl (fun n (d : Digit) => 10 * n + d.val) acc

/-- The number spelled by digits, most significant first. -/
def value (ds : List Digit) : Nat := valueFrom 0 ds

/-- The digits of a number, most significant first; zero has one digit. -/
def digits (n : Nat) : List Digit :=
  if n < 10 then [Fin.ofNat 10 n] else digits (n / 10) ++ [Fin.ofNat 10 n]
termination_by n
decreasing_by omega

@[simp] theorem valueFrom_append (acc : Nat) (ds es : List Digit) :
    valueFrom acc (ds ++ es) = valueFrom (valueFrom acc ds) es := by
  simp [valueFrom]

/-- The digits of a number spell that number. -/
@[simp] theorem value_digits (n : Nat) : value (digits n) = n := by
  fun_induction digits n with
  | case1 n h => simp [value, valueFrom, Nat.mod_eq_of_lt h]
  | case2 n h ih =>
      rw [value, valueFrom_append]
      rw [value] at ih
      rw [ih]
      simp [valueFrom]
      omega

/-- The numeral of a number. -/
def write (n : Nat) : String := String.ofList ((digits n).map Digit.char)

/-! ### Reading -/

/-- Why a text is no numeral below the limit. -/
inductive Misread where
  | empty
  | invalidDigit
  | tooLarge
  deriving DecidableEq, Repr

/-- The wording of a failed reading. -/
def Misread.message : Misread → String
  | .empty => "cannot parse integer from empty string"
  | .invalidDigit => "invalid digit found in string"
  | .tooLarge => "number too large to fit in target type"

/-- Reads digits on top of `acc`, stopping at the first character that is no digit or takes the
number to the limit. -/
def readFrom (limit acc : Nat) : List Char → Except Misread Nat
  | [] => .ok acc
  | c :: cs =>
      match Digit.ofChar? c with
      | none => .error .invalidDigit
      | some d =>
          if 10 * acc + d < limit then readFrom limit (10 * acc + d) cs else .error .tooLarge

/-- Reads an optional plus sign and one or more digits as a number below the limit.  A lone plus
sign is a character that is no digit. -/
def readChars (limit : Nat) : List Char → Except Misread Nat
  | [] => .error .empty
  | ['+'] => .error .invalidDigit
  | '+' :: cs => readFrom limit 0 cs
  | cs => readFrom limit 0 cs

/-- `readChars` on a text. -/
def read (limit : Nat) (text : String) : Except Misread Nat := readChars limit text.toList

end Decimal

end TraceReplay
