/-
**Busy time.**

The time during which at least one of some operations ran: overlaps count once.  The intervals are
sorted, and intervals that touch are merged from left to right.

Main definitions:

* `Interval` — a start and an end;
* `busyTime` — the length of the union of intervals.
-/

import TraceReplay.Counter

set_option relaxedAutoImplicit false
set_option autoImplicit false

namespace TraceReplay

/-- A start and an end. -/
abbrev Interval := Tick × Tick

namespace BusyTime

/-- Whether an interval comes no later than another: by start, then by end. -/
def before (a b : Interval) : Bool := a.1 < b.1 || (a.1 = b.1 && a.2 ≤ b.2)

/-- Adds to a total the length of the union of an interval and sorted intervals that start no
earlier. -/
def merge (total : Nat) (start finish : Tick) : List Interval → Except Fault Nat
  | [] => do
      let length ← Counter.sub finish start
      Counter.add total length
  | (s, f) :: rest =>
      if s ≤ finish then merge total start (max finish f) rest
      else do
        let length ← Counter.sub finish start
        let total ← Counter.add total length
        merge total s f rest

end BusyTime

/-- The length of the union of intervals. -/
def busyTime (intervals : List Interval) : Except Fault Nat :=
  match intervals.mergeSort BusyTime.before with
  | [] => .ok 0
  | (s, f) :: rest => BusyTime.merge 0 s f rest

end TraceReplay
