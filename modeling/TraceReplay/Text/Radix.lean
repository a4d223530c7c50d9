/-
**Numerals to other bases.**

Main definitions:

* `Radix.digit?` — the value of a digit to the base 16, in either case;
* `Radix.value?` — the number that digits spell to a base of at most 16;
* `Radix.char?` — the character with the number that digits spell.
-/

set_option relaxedAutoImplicit false
set_option autoImplicit false

namespace TraceReplay

namespace Radix

/-- The value of a digit to the base 16. -/
def digit? (c : Char) : Option Nat :=
  if c.isDigit then some (c.toNat - 48)
  else if 'a' ≤ c ∧ c ≤ 'f' then some (c.toNat - 87)
  else if 'A' ≤ c ∧ c ≤ 'F' then some (c.toNat - 55)
  else none

/-- The value of a digit to a base of at most 16. -/
def digitBelow? (base : Nat) (c : Char) : Option Nat := (digit? c).filter (· < base)

/-- The number that one or more digits spell to a base of at most 16. -/
def value? (base : Nat) : List Char → Option Nat
  | [] => none
  | cs => cs.foldlM (fun n c => (digitBelow? base c).map (base * n + ·)) 0

/-- The character whose number a given count of digits at the front spells to the base 16, and what
follows. -/
def char? (count : Nat) (cs : List Char) : Option (Char × List Char) :=
  if cs.length < count then none
  else
    (value? 16 (cs.take count)).bind fun n =>
      if n.isValidChar then some (Char.ofNat n, cs.drop count) else none

end Radix

end TraceReplay
