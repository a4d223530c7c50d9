/-
**The shortest decimal that reads back as a given binary64 number.**

A binary64 number is the centre of an interval of reals that all round to it.  Among the decimals in
that interval those with the fewest digits are wanted, and of these the one nearest to the number.
A decimal with `n` digits lies on a grid of powers of ten, and if a grid meets the interval at all,
then one of the two grid points around the number does; so the search asks for one digit, two
digits, and so on, and tests two points each time, in exact arithmetic.

Main definitions:

* `Binary64.Interval` — a positive number with the ends of its rounding interval, over a common
  denominator;
* `Binary64.Interval.ofBits` — the interval of a bit pattern;
* `Binary64.Tie` — which of two decimals at the same distance is taken;
* `Binary64.Shortest` — digits and a power of ten;
* `Binary64.shortest` — the search.
-/

set_option relaxedAutoImplicit false
set_option autoImplicit false

namespace TraceReplay

namespace Binary64

/-- A positive real between the ends of the interval that rounds to it, as numerators over one
denominator. -/
structure Interval where
  /-- Numerator of the number itself. -/
  centre : Nat
  /-- Numerator of the lower end. -/
  low : Nat
  /-- Numerator of the upper end. -/
  high : Nat
  /-- The common denominator. -/
  denominator : Nat
  /-- Whether the two ends round to the number too. -/
  closed : Bool

namespace Interval

/-- The interval of the finite positive number with the given exponent and fraction fields.  Its
ends lie half a unit away, except that below a power of two the spacing is halved, and they belong
to it iff the significand is even. -/
def ofFields (exponent fraction : Nat) : Interval :=
  let significand := if exponent = 0 then fraction else Nat.pow 2 52 + fraction
  let atPower := fraction = 0 ∧ 1 < exponent
  let power : Int := (max exponent 1 : Nat) - 1077
  let up := Nat.pow 2 power.toNat
  { centre := 4 * significand * up
    low := (4 * significand - if atPower then 1 else 2) * up
    high := (4 * significand + 2) * up
    denominator := Nat.pow 2 (-power).toNat
    closed := significand % 2 = 0 }

/-- The interval of a finite positive number given by its bits. -/
def ofBits (bits : UInt64) : Interval :=
  ofFields (bits.toNat / Nat.pow 2 52 % Nat.pow 2 11) (bits.toNat % Nat.pow 2 52)

/-- Whether `numerator / denominator` lies in the interval. -/
def contains (i : Interval) (numerator denominator : Nat) : Bool :=
  let x := numerator * i.denominator
  let low := i.low * denominator
  let high := i.high * denominator
  if i.closed then low ≤ x && x ≤ high else low < x && x < high

/-- Places of the number in front of the decimal point: the least `p` with the number below `10^p`.
Every positive binary64 number is above `10^-345`, so scaling by `10^345` leaves digits to count. -/
def places (i : Interval) : Int :=
  (Nat.toDigits 10 (Nat.pow 10 345 * i.centre / i.denominator)).length - 345

end Interval

/-- Which of two neighbouring decimals at the same distance from a number is taken. -/
inductive Tie where
  /-- The one whose last digit is even. -/
  | toEven
  /-- The greater one. -/
  | up
  deriving DecidableEq, Repr

/-- Whether the upper of two neighbours is taken, the lower of which is `below`.  Twice the distance
from the lower one is set against the distance between the two. -/
def Tie.takesUpper (tie : Tie) (below twice step : Nat) : Bool :=
  step < twice
    || (twice = step &&
      match tie with
      | .toEven => below % 2 = 1
      | .up => true)

/-- The decimal `digits * 10 ^ exponent`. -/
structure Shortest where
  /-- The digits, as a number. -/
  digits : Nat
  /-- The power of ten. -/
  exponent : Int
  deriving DecidableEq, Repr

namespace Shortest

/-- The same decimal without zeros at the end of its digits. -/
def trim : Nat → Shortest → Shortest
  | 0, s => s
  | fuel + 1, s =>
      if s.digits % 10 = 0 ∧ s.digits ≠ 0 then trim fuel ⟨s.digits / 10, s.exponent + 1⟩ else s

/-- The better of the two decimals with `count` digits around the number, if one of them lies in
its interval. -/
def onGrid (tie : Tie) (i : Interval) (places : Int) (count : Nat) : Option Shortest :=
  let exponent := places - count
  let up := Nat.pow 10 exponent.toNat
  let down := Nat.pow 10 (-exponent).toNat
  let below := i.centre * down / (i.denominator * up)
  let hit (d : Nat) : Bool := i.contains (d * up) down
  let step := i.denominator * up
  let twice := 2 * (i.centre * down - below * step)
  match hit below, hit (below + 1) with
  | true, true => some ⟨if tie.takesUpper below twice step then below + 1 else below, exponent⟩
  | true, false => some ⟨below, exponent⟩
  | false, true => some ⟨below + 1, exponent⟩
  | false, false => none

/-- The first grid with a decimal in the interval, starting at `count` digits. -/
def search (tie : Tie) (i : Interval) (places : Int) : Nat → Nat → Option Shortest
  | 0, _ => none
  | fuel + 1, count => (onGrid tie i places count).or (search tie i places fuel (count + 1))

end Shortest

/-- The shortest decimal of a finite positive number.  Seventeen digits always suffice. -/
def shortest (tie : Tie) (x : Float) : Shortest :=
  let i := Interval.ofBits x.toBits
  ((Shortest.search tie i i.places 17 1).getD ⟨0, 0⟩).trim 20

end Binary64

end TraceReplay
