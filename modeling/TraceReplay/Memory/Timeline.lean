/-
**Memory use over time.**

A timeline lists the ticks at which the bytes in use may change; between two of them nothing changes.
It also keeps the interval during which each tensor is in memory.

Main definitions:

* `Sample`, `Timeline` — bytes in use from a tick on, and the timeline;
* `Timeline.peak`, `Timeline.average` — the greatest use, and the mean over time;
* `Timeline.usageAt`, `Timeline.liveAt` — the use at a tick, and the tensors in memory at a tick.
-/

import TraceReplay.Counter
import TraceReplay.SortedMap

set_option relaxedAutoImplicit false
set_option autoImplicit false

namespace TraceReplay

/-- Bytes in use from a tick on. -/
structure Sample where
  tick : Tick
  bytes : Nat
  deriving DecidableEq, Repr

/-- When a tensor comes into memory, and when it is gone. -/
structure Lifetime where
  alloc : Tick
  free : Tick
  deriving DecidableEq, Repr

/-- Whether a tensor is in memory at a tick. -/
def Lifetime.covers (l : Lifetime) (t : Tick) : Bool := l.alloc ≤ t && t < l.free

/-- Memory use over time. -/
structure Timeline where
  samples : List Sample := []
  lifetimes : SortedMap String Lifetime := ∅

namespace Timeline

/-- Whether nothing was ever in memory. -/
def isEmpty (t : Timeline) : Bool := t.samples.isEmpty

/-- The greatest use. -/
def peak (t : Timeline) : Nat := (t.samples.map Sample.bytes).foldl max 0

/-- The sum over consecutive samples of bytes times ticks, in binary64 and from the left. -/
def weighted (acc : Float) : List Sample → Except Fault Float
  | a :: b :: rest => do
      let span ← Counter.sub b.tick a.tick
      weighted (acc + Binary64.ofCounter a.bytes * Binary64.ofCounter span) (b :: rest)
  | _ => .ok acc

/-- The mean use between the first and the last sample.  Without time between them it is the use at
the last one. -/
def average (t : Timeline) : Except Fault Float :=
  match t.samples with
  | [] => .ok 0
  | first :: rest => do
      let last := rest.getLastD first
      let span ← Counter.sub last.tick first.tick
      if span = 0 then return Binary64.ofCounter last.bytes
      let sum ← weighted 0 (first :: rest)
      return sum / Binary64.ofCounter span

/-- The last sample not behind a tick, found by halving samples that are in the order of their
ticks. -/
def lastUpTo? (tick : Tick) : List Sample → Option Sample
  | [] => none
  | [s] => if s.tick ≤ tick then some s else none
  | s :: s' :: rest =>
      let samples := s :: s' :: rest
      let half := samples.length / 2
      if (samples.drop half).head?.any fun s => s.tick ≤ tick then
        lastUpTo? tick (samples.drop half)
      else lastUpTo? tick (samples.take (samples.length - half))
termination_by samples => samples.length
decreasing_by
  all_goals
    simp only [List.length_drop, List.length_take, List.length_cons]
    omega

/-- The use at a tick, which is that of the last sample not behind it. -/
def usageAt (t : Timeline) (tick : Tick) : Nat :=
  ((lastUpTo? tick t.samples).map Sample.bytes).getD 0

/-- The tensors in memory at a tick, in the order of their names. -/
def liveAt (t : Timeline) (tick : Tick) : List String :=
  (t.lifetimes.toList.filter fun l => l.2.covers tick).map Prod.fst

/-- The interval during which a tensor is in memory. -/
def lifetime? (t : Timeline) (tensor : String) : Option Lifetime := t.lifetimes.find? tensor

end Timeline

end TraceReplay
