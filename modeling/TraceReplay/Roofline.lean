/-
**The roofline cost model.**

Computation is bounded by two ceilings: the peak performance of the processor, and the memory
bandwidth times the operations done per byte.

Main definitions:

* `Roofline` — the two ceilings;
* `Roofline.validate` — the ceilings that can be used;
* `Roofline.attainable` — the performance at an operation intensity;
* `Roofline.estimate` — the cost of some operations over some bytes.
-/

import TraceReplay.Counter
import TraceReplay.Error

set_option relaxedAutoImplicit false
set_option autoImplicit false

namespace TraceReplay

/-- The two ceilings of the model. -/
structure Roofline where
  /-- Operations per tick at most. -/
  peakPerf : Float
  /-- Bytes per tick at most. -/
  bandwidth : Float

/-- The cost of one computation. -/
structure Estimate where
  /-- Operations per byte. -/
  intensity : Float
  /-- Operations per tick. -/
  perf : Float
  /-- Duration. -/
  elapsed : Tick
  /-- Whether the memory ceiling is the lower one. -/
  memoryBound : Bool
  /-- Share of the peak performance that is used. -/
  computeUtilization : Float
  /-- Share of the bandwidth that is used. -/
  memoryUtilization : Float

namespace Roofline

/-- A ceiling has to be positive and finite. -/
def usable (x : Float) : Bool := Binary64.isPositive x && x.isFinite

/-- Refuses ceilings that cannot be used. -/
def validate (r : Roofline) : Except ReplayError Unit :=
  if !usable r.peakPerf then .error (.config "roofline peak_perf must be positive")
  else if !usable r.bandwidth then .error (.config "roofline bandwidth must be positive")
  else .ok ()

/-- The performance at an operation intensity. -/
def attainable (r : Roofline) (intensity : Float) : Float :=
  Binary64.lesser (r.bandwidth * intensity) r.peakPerf

/-- The cost of operations over bytes, both of which have to be there. -/
def estimate (r : Roofline) (numOps ioSize : Nat) : Except Fault Estimate :=
  if numOps = 0 ∨ ioSize = 0 then .error .emptyEstimate
  else
    let ops := Binary64.ofCounter numOps
    let intensity := ops / Binary64.ofCounter ioSize
    let perf := r.attainable intensity
    .ok {
      intensity
      perf
      elapsed := Binary64.toCounter (ops / perf)
      memoryBound := r.bandwidth * intensity < r.peakPerf
      computeUtilization := perf / r.peakPerf
      memoryUtilization := Binary64.lesser (perf / intensity / r.bandwidth) 1 }

end Roofline

end TraceReplay
