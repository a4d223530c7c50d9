/-
**Reading decimals as binary64 numbers.**

Main definitions:

* `Binary64.nearest`, `Binary64.ofDecimal?` — the number nearest to a decimal, and the same unless
  it is infinite;
* `Binary64.scanDigits` — the digits in front of a text;
* `Binary64.read?` — the finite number that a whole text writes.
-/

import TraceReplay.Text.Decimal

set_option relaxedAutoImplicit false
set_option autoImplicit false

namespace TraceReplay

namespace Binary64

/-- The binary64 number nearest to `mantissa * 10 ^ exponent`; beyond the finite numbers it is
infinite.  Powers of ten far outside the range are decided by the number of digits alone. -/
def nearest (mantissa : Nat) (exponent : Int) : Float :=
  let top := (Decimal.digits mantissa).length + exponent
  if mantissa = 0 ∨ top < -400 then 0
  else if 400 < top then 1 / 0
  else if 0 ≤ exponent then Float.ofScientific mantissa false exponent.toNat
  else Float.ofScientific mantissa true (-exponent).toNat

/-- The binary64 number nearest to `mantissa * 10 ^ exponent`, unless that is infinite. -/
def ofDecimal? (mantissa : Nat) (exponent : Int) : Option Float :=
  some (nearest mantissa exponent) |>.filter Float.isFinite

/-- The digits at the front of some characters, and what follows. -/
def scanDigits : List Char → List Digit × List Char
  | [] => ([], [])
  | c :: cs =>
      match Digit.ofChar? c with
      | none => ([], c :: cs)
      | some d => (d :: (scanDigits cs).1, (scanDigits cs).2)

theorem scanDigits_length (cs : List Char) :
    (scanDigits cs).1.length + (scanDigits cs).2.length = cs.length := by
  fun_induction scanDigits cs with
  | case1 => rfl
  | case2 => simp
  | case3 c cs d hd ih => simp only [List.length_cons]; omega

/-- The power of ten at the end of a decimal: none at all, or a mark, a sign and digits. -/
def readExponent? : List Char → Option Int
  | [] => some 0
  | c :: cs =>
      if c = 'e' ∨ c = 'E' then
        let (negative, cs) :=
          match cs with
          | '-' :: cs => (true, cs)
          | '+' :: cs => (false, cs)
          | cs => (false, cs)
        match scanDigits cs with
        | ([], _) => none
        | (ds, []) =>
            let n : Int := Decimal.value ds
            some (if negative then -n else n)
        | _ => none
      else none

/-- The number nearest to what digits with an optional point and an optional exponent write.  Digits
may be missing on one side of the point. -/
def readUnsigned? (cs : List Char) : Option Float :=
  let (whole, cs) := scanDigits cs
  let (fraction, cs) :=
    match cs with
    | '.' :: cs => scanDigits cs
    | cs => ([], cs)
  if whole = [] ∧ fraction = [] then none
  else
    (readExponent? cs).map fun e =>
      nearest (Decimal.value (whole ++ fraction)) (e - fraction.length)

/-- The finite number that a text writes, with an optional sign. -/
def read? (cs : List Char) : Option Float :=
  let x :=
    match cs with
    | '-' :: cs => (readUnsigned? cs).map fun x => -x
    | '+' :: cs => readUnsigned? cs
    | cs => readUnsigned? cs
  x.filter Float.isFinite

end Binary64

end TraceReplay
