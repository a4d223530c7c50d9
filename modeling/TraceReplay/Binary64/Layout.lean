/-
**Written forms of binary64 numbers.**

The digits of a number are chosen by `Binary64.shortest`; a layout decides where the point stands.
Log lines write every number without an exponent and whole numbers without a point, and of two
decimals at the same distance the greater one.

Main definitions:

* `Binary64.isNegative` — the sign, which zero has too;
* `Binary64.plain` — the form in log lines: `87.5`, `0`, `1`.
-/

import TraceReplay.Binary64.Shortest

set_option relaxedAutoImplicit false
set_option autoImplicit false

namespace TraceReplay

namespace Binary64

/-- Whether the sign bit is set. -/
def isNegative (x : Float) : Bool := x.toBits >>> 63 == 1

/-- A positive decimal without exponent: zeros fill the places between digits and point. -/
def Shortest.plain (s : Shortest) : String :=
  let ds := toString s.digits
  if 0 ≤ s.exponent then ds ++ "".pushn '0' s.exponent.toNat
  else
    let fraction := (-s.exponent).toNat
    if fraction < ds.length then
      let cs := ds.toList
      String.ofList (cs.take (cs.length - fraction)) ++ "."
        ++ String.ofList (cs.drop (cs.length - fraction))
    else "0." ++ "".pushn '0' (fraction - ds.length) ++ ds

/-- A number without exponent; a whole number has no point. -/
def plain (x : Float) : String :=
  if x.isNaN then "NaN"
  else
    let sign := if isNegative x then "-" else ""
    if x.isInf then sign ++ "inf"
    else if x == 0 then sign ++ "0"
    else sign ++ (shortest .up x.abs).plain

end Binary64

end TraceReplay
