/-
**Tensor traffic.**

While memory is tracked, every node opens an interval when it starts and closes it when it ends; then
its inputs count as read and its outputs as written over that interval.  A tensor is written once.
One that is read before it is written is taken to have been there from tick zero.

Main definitions:

* `Activity` — one read or write;
* `Tracker` — sizes, writes and reads by tensor name, and the intervals still open;
* `Tracker.recordStart`, `Tracker.recordEnd` — opening and closing the interval of a node;
* `Tracker.lifetimes`, `Tracker.timelineOf` — the lifetimes of all tensors, and the timeline;
* `Tracker.buildTimeline` — the timeline, kept in the tracker.
-/

import TraceReplay.Action
import TraceReplay.Ascending
import TraceReplay.Memory.Timeline
import TraceReplay.Trace.TensorList

set_option relaxedAutoImplicit false
set_option autoImplicit false

namespace TraceReplay

/-- One read or write of a tensor. -/
structure Activity where
  start : Tick
  finish : Tick
  /-- The node that touched the tensor; none for a tensor that was there from tick zero. -/
  node : Option NodeId
  deriving DecidableEq, Repr

/-- The write of a tensor that was there from tick zero. -/
def Activity.assumed : Activity := ⟨0, 0, none⟩

/-- Whether a write stands for a tensor that was there from tick zero. -/
def Activity.isAssumed (a : Activity) : Bool := a.node.isNone

/-- Tensor traffic recorded so far. -/
structure Tracker where
  sysId : Nat
  /-- Starts of the intervals still open. -/
  opened : SortedMap NodeId Tick := ∅
  sizes : SortedMap String Nat := ∅
  writes : SortedMap String Activity := ∅
  reads : SortedMap String (List Activity) := ∅
  /-- The timeline built last. -/
  timeline : Timeline := {}

namespace Tracker

/-! ### Recording -/

/-- Opens the interval of a node. -/
def recordStart (m : Tracker) (node : NodeId) (tick : Tick) : Tracker :=
  { m with opened := m.opened.insert node tick }

/-- Whether a tensor is known; its size must not have changed. -/
def isKnown (m : Tracker) (t : Tensor) : Except ReplayError Bool :=
  match m.sizes.find? t.name with
  | none => .ok false
  | some size =>
      if size = t.size then .ok true else .error (.tensorSizeMismatch t.name size t.size)

/-- The reads of a tensor, in the order in which they were recorded. -/
def readsOf (m : Tracker) (tensor : String) : List Activity := (m.reads.find? tensor).getD []

/-- Enters a tensor with its size and its write. -/
def enter (m : Tracker) (t : Tensor) (write : Activity) : Tracker :=
  { m with sizes := m.sizes.insert t.name t.size, writes := m.writes.insert t.name write }

/-- Adds a read of a tensor. -/
def addRead (m : Tracker) (tensor : String) (read : Activity) : Tracker :=
  { m with reads := m.reads.insert tensor (m.readsOf tensor ++ [read]) }

/-- Records the read of a tensor by a node. -/
def recordRead (node : NodeId) (start finish : Tick) (t : Tensor) : Action Stop Tracker Unit := do
  let m ← Action.get
  let known ← Action.lift (orError (m.isKnown t))
  if !known then
    Action.note (.assumedPresent m.sysId node t.name)
    Action.update fun m => m.enter t .assumed
  Action.update fun m => m.addRead t.name ⟨start, finish, some node⟩

/-- Records the write of a tensor by a node. -/
def recordWrite (node : NodeId) (start finish : Tick) (t : Tensor) : Action Stop Tracker Unit := do
  let m ← Action.get
  let known ← Action.lift (orError (m.isKnown t))
  if known then throw (.error (.tensorRewritten t.name node))
  Action.put (m.enter t ⟨start, finish, some node⟩)

/-- Closes the interval of a node and records its traffic.  Both lists are read before anything is
recorded, so a node with a bad list leaves no traffic behind. -/
def recordEnd (n : Node) (tick : Tick) : Action Stop Tracker Unit := do
  let m ← Action.get
  match m.opened.find? n.id with
  | none => throw (.fault (.trafficNotOpen n.id))
  | some start =>
      Action.put { m with opened := m.opened.erase n.id }
      let inputs ← Action.lift (orError n.inputTensors)
      let outputs ← Action.lift (orError n.outputTensors)
      inputs.forM (recordRead n.id start tick)
      outputs.forM (recordWrite n.id start tick)

/-! ### The timeline -/

/-- The lifetime of a tensor: from the start of its write to the last end of its write and reads. -/
def lifetimeOf (m : Tracker) (tensor : String) (write : Activity) : Lifetime :=
  ⟨write.start, ((m.readsOf tensor).map Activity.finish).foldl max write.finish⟩

/-- The lifetimes of all tensors, in the order of their names. -/
def lifetimes (m : Tracker) : List (String × Lifetime) :=
  m.writes.toList.map fun w => (w.1, m.lifetimeOf w.1 w.2)

/-- The ticks at which tensors come into memory or go, ascending. -/
def changes (ls : List (String × Lifetime)) : List Tick :=
  ascending (ls.map (·.2.alloc) ++ ls.map (·.2.free))

/-- The tensors in memory after the changes at a tick: those that come join those that were there,
and then those that go leave. -/
def advance (ls : List (String × Lifetime)) (live : List String) (tick : Tick) : List String :=
  (ls.filter fun l => (l.2.alloc = tick || live.contains l.1) && l.2.free ≠ tick).map Prod.fst

/-- Bytes of the tensors in memory. -/
def bytesOf (m : Tracker) (live : List String) : Except Fault Nat :=
  Counter.sum (live.map fun name => (m.sizes.find? name).getD 0)

/-- The samples at some ticks, where some tensors are in memory before the first. -/
def sweep (m : Tracker) (ls : List (String × Lifetime)) (live : List String) :
    List Tick → Except Fault (List Sample)
  | [] => .ok []
  | t :: ts => do
      let live := advance ls live t
      let bytes ← m.bytesOf live
      let rest ← sweep m ls live ts
      return ⟨t, bytes⟩ :: rest

/-- The timeline of the traffic recorded so far. -/
def timelineOf (m : Tracker) : Except Fault Timeline := do
  let samples ← m.sweep m.lifetimes [] (changes m.lifetimes)
  return { samples, lifetimes := m.lifetimes.foldl (fun ls l => ls.insert l.1 l.2) ∅ }

/-- Builds the timeline and keeps it. -/
def buildTimeline (m : Tracker) : Except Fault Tracker := do
  let timeline ← m.timelineOf
  return { m with timeline }

end Tracker

end TraceReplay
