/-
**Trace nodes.**

A node has an id, a kind, two lists of parents and some attributes.  Every attribute may be absent;
which ones a node needs depends on its class and on the cost model.

Main definitions:

* `Attributes`, `Node` — attributes and nodes;
* `Node.onCpu`, `Node.nodeClass` — where computation runs, and the class of a node;
* `Node.parents` — data parents first, then control parents, as listed.
-/

import TraceReplay.Trace.Class
import TraceReplay.Trace.Collective

set_option relaxedAutoImplicit false
set_option autoImplicit false

namespace TraceReplay

/-- What a trace records about a node besides its place in the graph. -/
structure Attributes where
  /-- Whether computation runs on the CPU. -/
  isCpuOp : Option Bool := none
  /-- Recorded duration in microseconds. -/
  runtime : Option Nat := none
  /-- Operations performed. -/
  numOps : Option Nat := none
  /-- Bytes of the node's own tensor. -/
  tensorSize : Option Nat := none
  /-- Where a remote tensor lives. -/
  tensorLoc : Option String := none
  commType : Option CollectiveKind := none
  /-- Elements moved. -/
  commSize : Option Nat := none
  commSrc : Option Nat := none
  commDst : Option Nat := none
  commTag : Option Nat := none
  commPriority : Option Nat := none
  /-- Which network dimensions a collective uses. -/
  involvedDim : Option (List Bool) := none
  /-- Names and sizes of the tensors read, alternating. -/
  inputs : Option (List String) := none
  /-- Names and sizes of the tensors written, alternating. -/
  outputs : Option (List String) := none
  deriving DecidableEq, Repr

/-- One operation of a trace. -/
structure Node where
  id : NodeId
  name : String
  kind : NodeKind
  /-- Parents whose output the node consumes. -/
  dataDeps : List NodeId
  /-- Parents that only have to finish first. -/
  ctrlDeps : List NodeId
  attributes : Attributes
  deriving DecidableEq, Repr

namespace Node

/-- A node with a default name, and without parents and attributes. -/
def ofKind (id : NodeId) (kind : NodeKind) : Node := ⟨id, s!"node_{id}", kind, [], [], {}⟩

/-- Whether computation runs on the CPU, which it does unless the trace denies it. -/
def onCpu (n : Node) : Bool := n.attributes.isCpuOp.getD true

/-- The class of a node. -/
def nodeClass (n : Node) : NodeClass := n.kind.toClass n.onCpu

/-- All parents as listed, data parents first. -/
def parents (n : Node) : List NodeId := n.dataDeps ++ n.ctrlDeps

/-- Bytes of the node's own tensor; none are recorded as zero. -/
def tensorSize (n : Node) : Nat := n.attributes.tensorSize.getD 0

end Node

end TraceReplay
