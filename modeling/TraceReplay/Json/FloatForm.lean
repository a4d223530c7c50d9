/-
**Binary64 numbers in JSON documents.**

A number is written with its shortest digits, of which an exact tie takes the even ones: with a point
and at least one digit behind it from `1e-5` up to below `1e16`, and with an exponent outside.
Infinite numbers and not-a-number have no written form and become `null`.

Main definitions:

* `Json.Number.ofShortest` — the literal of a positive decimal;
* `Json.ofFloat` — the document of a number.
-/

import TraceReplay.Binary64.Layout
import TraceReplay.Json.Basic

set_option relaxedAutoImplicit false
set_option autoImplicit false

namespace TraceReplay

namespace Json

/-- The literal of a positive decimal.  `top` is the exponent of its first digit. -/
def Number.ofShortest (s : Binary64.Shortest) : Number :=
  let ds := Decimal.digits s.digits
  let top : Int := ds.length - 1 + s.exponent
  if top < -5 ∨ 15 < top then ⟨false, Decimal.value (ds.take 1), ds.drop 1, some top⟩
  else if top < 0 then ⟨false, 0, List.replicate (-top - 1).toNat .zero ++ ds, none⟩
  else
    let padded := ds ++ List.replicate s.exponent.toNat .zero
    let front := top.toNat + 1
    let fraction := padded.drop front
    ⟨false, Decimal.value (padded.take front), if fraction = [] then [.zero] else fraction, none⟩

/-- The document of a number. -/
def ofFloat (x : Float) : Json :=
  if x.isFinite then
    let n : Number :=
      if x == 0 then ⟨false, 0, [.zero], none⟩
      else .ofShortest (Binary64.shortest .toEven x.abs)
    .number { n with negative := Binary64.isNegative x }
  else .null

end Json

end TraceReplay
