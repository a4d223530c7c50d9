/-
**Counters below 2^64.**

Ids, ticks and byte sizes are natural numbers below 2^64.  Sums, differences and products that leave
this range are faults, except where a cost is meant to stop at the last tick.

Costs are computed in binary64 and spent in ticks.  A number becomes a counter by dropping its fraction
and clamping it into the counter's range; a counter becomes the nearest number.

Main definitions:

* `Counter.limit`, `Counter.greatest` — the end of the range;
* `Counter.add`, `Counter.sub`, `Counter.mul` — arithmetic that faults;
* `Counter.sum` — the sum of a list, from the left;
* `Counter.addClamped`, `Counter.mulClamped` — arithmetic that stops at the greatest counter;
* `Binary64.ofCounter`, `Binary64.toCounter` — the two conversions;
* `Binary64.lesser` — the smaller of two numbers, where not-a-number gives way to the other;
* `Binary64.isPositive` — above zero, which not-a-number is not.
-/

import TraceReplay.Fault

set_option relaxedAutoImplicit false
set_option autoImplicit false

namespace TraceReplay

namespace Counter

/-- The first number that is no counter, 2^64. -/
def limit : Nat := 18446744073709551616

/-- The greatest counter. -/
def greatest : Nat := limit - 1

/-- The first number that is no slot count or priority, 2^32. -/
def smallLimit : Nat := 4294967296

/-- The sum of two counters. -/
def add (a b : Nat) : Except Fault Nat :=
  if a + b < limit then .ok (a + b) else .error .sumTooLarge

/-- The difference of two counters. -/
def sub (a b : Nat) : Except Fault Nat :=
  if b ≤ a then .ok (a - b) else .error .differenceNegative

/-- The product of two counters. -/
def mul (a b : Nat) : Except Fault Nat :=
  if a * b < limit then .ok (a * b) else .error .productTooLarge

/-- The sum of counters, added from the left. -/
def sum (ns : List Nat) : Except Fault Nat := ns.foldlM add 0

/-- The sum of two counters, or the greatest counter. -/
def addClamped (a b : Nat) : Nat := min (a + b) greatest

/-- The product of two counters, or the greatest counter. -/
def mulClamped (a b : Nat) : Nat := min (a * b) greatest

theorem add_of_lt {a b : Nat} (h : a + b < limit) : add a b = .ok (a + b) := if_pos h

theorem sub_of_le {a b : Nat} (h : b ≤ a) : sub a b = .ok (a - b) := if_pos h

theorem mul_of_lt {a b : Nat} (h : a * b < limit) : mul a b = .ok (a * b) := if_pos h

theorem addClamped_lt (a b : Nat) : addClamped a b < limit := by
  simp only [addClamped, greatest, limit]; omega

theorem le_addClamped {a : Nat} (b : Nat) (h : a < limit) : a ≤ addClamped a b := by
  simp only [addClamped, greatest, limit] at *; omega

end Counter

namespace Binary64

/-- The binary64 number nearest to a counter. -/
def ofCounter (n : Nat) : Float := Float.ofNat n

/-- The whole part of a number, clamped to the counters below 2^64.  Not-a-number counts as zero. -/
def toCounter (x : Float) : Nat := x.toUInt64.toNat

theorem toCounter_lt (x : Float) : toCounter x < Counter.limit := x.toUInt64.toNat_lt

/-- The smaller of two numbers, of equal ones the second; if one is not a number, the other. -/
def lesser (a b : Float) : Float :=
  if a.isNaN then b else if b.isNaN then a else if a < b then a else b

/-- Whether a number is above zero. -/
def isPositive (x : Float) : Bool := x > 0

end Binary64

end TraceReplay
