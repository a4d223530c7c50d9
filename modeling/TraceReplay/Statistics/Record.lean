/-
**Records of nodes.**

For every node that was issued or skipped there is a record: when it started, when it ended, and what
the roofline model said about it.

Main definitions:

* `OperatorType` — the category that time is accounted under;
* `Metrics` — what the roofline model says about a computation;
* `Record` — the record of a node;
* `Record.duration` — the time from start to end.
-/

import TraceReplay.Counter
import TraceReplay.Roofline

set_option relaxedAutoImplicit false
set_option autoImplicit false

namespace TraceReplay

/-- The category that a node's time is accounted under. -/
inductive OperatorType where
  | cpu
  | gpu
  | comm
  | remoteMemory
  | invalid
  deriving DecidableEq, Repr

namespace OperatorType

/-- All categories, in the order in which they are reported. -/
def all : List OperatorType := [cpu, gpu, comm, remoteMemory, invalid]

/-- The name of a category in documents. -/
def key : OperatorType → String
  | cpu => "cpu"
  | gpu => "gpu"
  | comm => "comm"
  | remoteMemory => "remote_mem"
  | invalid => "invalid"

/-- The category with a given name. -/
def ofKey? (s : String) : Option OperatorType := all.find? fun t => t.key = s

/-- The name of a category's metric in reports. -/
def metricName : OperatorType → String
  | cpu => "CPU time"
  | gpu => "GPU time"
  | comm => "Comm time"
  | remoteMemory => "Remote mem time"
  | invalid => "Invalid time"

/-- Computation on either kind of processor. -/
def isCompute : OperatorType → Bool
  | cpu | gpu => true
  | _ => false

/-- The category of a class. -/
def ofClass : NodeClass → OperatorType
  | .cpuCompute => cpu
  | .gpuCompute => gpu
  | .memLoad | .memStore => remoteMemory
  | .collective | .send | .receive => comm
  | .invalid => invalid

end OperatorType

/-- What the roofline model says about a computation. -/
structure Metrics where
  memoryBound : Bool
  computeUtilization : Float
  memoryUtilization : Float
  intensity : Float

/-- The metrics of an estimate. -/
def Metrics.ofEstimate (e : Estimate) : Metrics :=
  ⟨e.memoryBound, e.computeUtilization, e.memoryUtilization, e.intensity⟩

/-- The record of a node. -/
structure Record where
  node : NodeId
  operatorType : OperatorType
  start : Tick
  /-- The end, once the node completed. -/
  finish : Option Tick := none
  metrics : Option Metrics := none

namespace Record

/-- The time from start to end. -/
def duration (r : Record) : Except Fault (Option Tick) :=
  match r.finish with
  | none => .ok none
  | some finish => (Counter.sub finish r.start).map some

/-- Start and end, if the node completed. -/
def interval? (r : Record) : Option (Tick × Tick) := r.finish.map fun finish => (r.start, finish)

/-- Whether the node was in flight at a tick. -/
def activeAt (r : Record) (t : Tick) : Bool :=
  r.start ≤ t && match r.finish with
    | none => true
    | some finish => t < finish

end Record

end TraceReplay
