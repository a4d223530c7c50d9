/-
**Broken promises.**

The engine, its bookkeeping and the kernels rely on promises of their callers: a slot is asked for
before it is taken, a token comes back once, counters stay below 2^64.  Where a promise is broken
the run ends in a fault, which is no error value: nothing can be continued after it.

Main definitions:

* `Fault` — the broken promises;
* `Fault.message` — their wording.
-/

import TraceReplay.Kernel.Event
import TraceReplay.Resource

set_option relaxedAutoImplicit false
set_option autoImplicit false

namespace TraceReplay

/-- A broken promise. -/
inductive Fault where
  /-- A sum of counters reaches 2^64. -/
  | sumTooLarge
  /-- A difference of counters is negative. -/
  | differenceNegative
  /-- A product of counters reaches 2^64. -/
  | productTooLarge
  /-- A node takes a slot of a resource that is full. -/
  | resourceFull (node : NodeId) (resource : Resource) (capacity : Nat)
  /-- A node gives back a slot of a resource that nobody holds. -/
  | resourceIdle (node : NodeId) (resource : Resource)
  /-- The dependents of a node are freed a second time. -/
  | freedTwice (node : NodeId)
  /-- A token comes back that is not out. -/
  | tokenNotOut (token : Token)
  /-- A token comes back with an event of another kind. -/
  | wrongEvent (node : NodeId) (expected : Expected) (event : Event)
  /-- A handle is registered that is already out. -/
  | handleTaken (handle : Handle) (node : NodeId)
  /-- A handle finishes that is not out. -/
  | handleNotOut (handle : Handle)
  /-- A handle finishes for a node that has none out. -/
  | noHandlesOut (node : NodeId)
  /-- A node without a statistics record is written to. -/
  | noRecord (node : NodeId)
  /-- A node ends before its start. -/
  | endsEarly (node : NodeId) (tick start : Tick)
  /-- A node's tensor traffic ends without having started. -/
  | trafficNotOpen (node : NodeId)
  /-- A roofline estimate is asked for no operations or no bytes. -/
  | emptyEstimate
  deriving DecidableEq, Repr

/-- The wording of a fault. -/
def Fault.message : Fault → String
  | sumTooLarge => "attempt to add with overflow"
  | differenceNegative => "attempt to subtract with overflow"
  | productTooLarge => "attempt to multiply with overflow"
  | resourceFull node resource capacity =>
      s!"node {node} occupies {resource.display} beyond capacity {capacity}"
  | resourceIdle node resource => s!"node {node} releases idle resource {resource.display}"
  | freedTwice node => s!"dependents of node {node} freed twice"
  | tokenNotOut token => s!"{token.display} completed twice or never issued"
  | wrongEvent node expected event =>
      s!"node {node} expected {expected.name} but got {event.display}"
  | handleTaken handle node => s!"{handle.display} registered twice (node {node})"
  | handleNotOut handle => s!"{handle.display} finished but was never registered"
  | noHandlesOut node => s!"node {node} has no outstanding collective handles"
  | noRecord node => s!"node {node} has no statistics record"
  | endsEarly node tick start => s!"node {node} ends at {tick} before its start {start}"
  | trafficNotOpen node => s!"node {node} ended without a recorded start"
  | emptyEstimate => "assertion failed: num_ops > 0 && io_size > 0"

end TraceReplay
