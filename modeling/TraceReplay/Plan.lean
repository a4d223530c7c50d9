/-
**Dispatch plans.**

Before a node is issued its attributes are checked against what its class needs under the active cost
model, and turned into a plan; afterwards only the plan is looked at.

Main definitions:

* `Plan` — what issuing a node amounts to;
* `Plan.ofNode` — the plan of a node, or what is wrong with it;
* `Plan.ioSize` — the bytes that a computation touches;
* `Plan.invalidNodes` — all bad nodes of a list, with what is wrong with them.
-/

import TraceReplay.Config
import TraceReplay.Kernel.Request
import TraceReplay.Trace.Node

set_option relaxedAutoImplicit false
set_option autoImplicit false

namespace TraceReplay

/-- What issuing a node amounts to. -/
inductive Plan where
  /-- There is nothing to simulate. -/
  | skip
  /-- An operation is asked of the kernel. -/
  | operation (operation : Operation)
  /-- A computation whose duration the roofline model gives. -/
  | roofline (numOps ioSize : Nat)
  /-- A collective for which the kernel has a primitive. -/
  | collective (kind : CollectiveKind) (size : Nat) (involvedDims : List Bool) (priority : Nat)
  /-- A collective without primitive, which lasts as long as recorded. -/
  | timedCollective (duration : Tick)
  deriving DecidableEq, Repr

namespace Plan

variable {α : Type}

/-- An attribute that has to be there. -/
def require (n : Node) (name : String) (value : Option α) : Except ReplayError α :=
  match value with
  | some a => .ok a
  | none => .error (.missingAttribute n.id name)

/-- An attribute that has to be there and not zero. -/
def requireNonzero (n : Node) (name : String) (value : Option Nat) : Except ReplayError Nat := do
  let v ← require n name value
  if v = 0 then throw (.validation n.id s!"'{name}' must be non-zero")
  return v

/-- The plan of replaying the recorded duration. -/
def replay (c : EngineConfig) (n : Node) : Except ReplayError Plan := do
  let runtime ← require n "runtime" n.attributes.runtime
  return .operation (.timed (c.replayTicks runtime))

/-- Adds the tensor of a data parent. -/
def addParent (sizeOf : NodeId → Option Nat) (total : Nat) (parent : NodeId) : Except Stop Nat :=
  match sizeOf parent with
  | none => .error (.error (.unknownNode parent))
  | some size => orFault (Counter.add total size)

/-- The bytes that a computation touches: its own tensor and those of its data parents as listed. -/
def ioSize (sizeOf : NodeId → Option Nat) (n : Node) : Except Stop Nat :=
  n.dataDeps.foldlM (addParent sizeOf) n.tensorSize

/-- The plan of a computation under the roofline model. -/
def ofComputation (sizeOf : NodeId → Option Nat) (n : Node) : Except Stop Plan := do
  let numOps ← orError (requireNonzero n "num_ops" n.attributes.numOps)
  let _ ← orError (require n "tensor_size" n.attributes.tensorSize)
  let size ← ioSize sizeOf n
  if size = 0 then
    throw (.error (.validation n.id "roofline needs a non-zero touched tensor size"))
  return .roofline numOps size

/-- The plan of a remote-memory access. -/
def ofRemoteMemory (n : Node) : Except ReplayError Plan := do
  let _ ← require n "tensor_loc" n.attributes.tensorLoc
  let size ← requireNonzero n "tensor_size" n.attributes.tensorSize
  return .operation (.remoteMemory size)

/-- The plan of a collective.  Without a mask it uses all network dimensions. -/
def ofCollective (c : EngineConfig) (n : Node) : Except ReplayError Plan := do
  let a := n.attributes
  let kind ← require n "comm_type" a.commType
  let size ← require n "comm_size" a.commSize
  if !kind.isSupported then throw (.unsupportedCollective n.id kind.name)
  if kind.hasPrimitive then
    return .collective kind size (a.involvedDim.getD (List.replicate c.networkDims true))
      (a.commPriority.getD 0)
  else return .timedCollective (c.replayTicks (a.runtime.getD 0))

/-- The plan of a send; the sender is this system unless the trace says otherwise. -/
def ofSend (c : EngineConfig) (n : Node) : Except ReplayError Plan := do
  let a := n.attributes
  let destination ← require n "comm_dst" a.commDst
  let size ← require n "comm_size" a.commSize
  return .operation
    (.send ⟨a.commSrc.getD c.sysId, destination, size, a.commTag.getD 0, .uint8, n.id⟩)

/-- The plan of a receive; the receiver is this system unless the trace says otherwise. -/
def ofReceive (c : EngineConfig) (n : Node) : Except ReplayError Plan := do
  let a := n.attributes
  let source ← require n "comm_src" a.commSrc
  let size ← require n "comm_size" a.commSize
  return .operation
    (.receive ⟨source, a.commDst.getD c.sysId, size, a.commTag.getD 0, .uint8, n.id⟩)

/-- The plan of a node taken to be of a class, where `sizeOf` gives the tensor sizes of its parents. -/
def ofNode (c : EngineConfig) (sizeOf : NodeId → Option Nat) (n : Node) (nodeClass : NodeClass) :
    Except Stop Plan :=
  if nodeClass = .invalid then .ok .skip
  else if c.replayOnly then orError (replay c n)
  else
    match nodeClass with
    | .memLoad | .memStore => orError (ofRemoteMemory n)
    | .cpuCompute => if c.roofline.isSome then ofComputation sizeOf n else orError (replay c n)
    | .gpuCompute =>
        if c.roofline.isSome then
          .error (.error (.unsupported (s!"node {n.id}: roofline model for gpu is not "
            ++ "implemented, change type to cpu")))
        else orError (replay c n)
    | .collective => orError (ofCollective c n)
    | .send => orError (ofSend c n)
    | .receive => orError (ofReceive c n)
    | .invalid => .ok .skip

/-- What is wrong with a node, if anything is. -/
def problem? (c : EngineConfig) (sizeOf : NodeId → Option Nat) (n : Node) :
    Except Fault (Option ReplayError) :=
  match ofNode c sizeOf n n.nodeClass with
  | .ok _ => .ok none
  | .error (.error e) => .ok (some e)
  | .error (.fault f) => .error f

/-- The bad nodes of a list, in its order, with the wording of what is wrong with them. -/
def invalidNodes (c : EngineConfig) (sizeOf : NodeId → Option Nat) (ns : List Node) :
    Except Fault (List (NodeId × String)) := do
  let problems ← ns.mapM fun n => do return (n.id, ← problem? c sizeOf n)
  return problems.filterMap fun p => p.2.map fun e => (p.1, e.message)

end Plan

end TraceReplay
