/-
**Whole runs.**

With the analytical kernel a run needs nothing from outside: the engine is fired, and the kernel's
events are handed to it one by one until it has finished or none are left.  Every event is either the
only one of a node or was pending before, so the nodes queued or waiting and the events pending bound
how many there are.

Main definitions:

* `Replay.step` — one event of the kernel;
* `Replay.bound` — a bound on the number of events still to be handled;
* `Replay.run` — a whole run, with its finish tick;
* `Replay.events` — events until the run has finished or none are left.
-/

import TraceReplay.Kernel.Analytical
import TraceReplay.Workload

set_option relaxedAutoImplicit false
set_option autoImplicit false

namespace TraceReplay

namespace Replay

open Engine

/-- Takes the kernel's next event and handles it; the answer is the event, with its tick. -/
def step : Act Analytical (Option (Tick × Event)) := do
  match (← Action.get).kernel.next? with
  | none => return none
  | some (event, kernel) =>
      Action.update fun e => { e with kernel }
      call event
      return some (kernel.now, event)

/-- A bound on the number of events still to be handled: each of them is pending or belongs to a node
that is queued or waiting. -/
def bound (e : Engine Analytical) : Nat := e.workload.graph.work + e.kernel.pending

/-- Handles up to `fuel` events, until the run has finished. -/
def finishWithin : Nat → Act Analytical Unit
  | 0 => return
  | fuel + 1 => do
      let e ← Action.get
      if e.workload.isFinished then return
      match ← step with
      | none => throw (.error (.stalled e.workload.graph.remaining))
      | some _ => finishWithin fuel

/-- Fires the engine and hands it events until it has finished; the answer is the finish tick. -/
def run : Act Analytical Tick := do
  fire
  let e ← Action.get
  finishWithin (bound e + 1)
  let e ← Action.get
  return e.workload.finishTick.getD e.kernel.now

/-- Up to `fuel` events until the run has finished or none are left. -/
def eventsWithin : Nat → Act Analytical (List (Tick × Event))
  | 0 => return []
  | fuel + 1 => do
      let e ← Action.get
      if e.workload.isFinished then return []
      match ← step with
      | none => return []
      | some event => return event :: (← eventsWithin fuel)

/-- Events until the run has finished or none are left. -/
def events : Act Analytical (List (Tick × Event)) := do
  let e ← Action.get
  eventsWithin (bound e + 1)

end Replay

end TraceReplay
