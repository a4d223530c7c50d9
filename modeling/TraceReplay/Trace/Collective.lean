/-
**Collective operations and communicator groups.**

A collective is one of eight kinds.  A kernel has primitives for four of them; a broadcast is
simulated by replaying its recorded duration, and the other three cannot be simulated.

Main definitions:

* `CollectiveKind` — the kinds, with their spelling;
* `CollectiveKind.hasPrimitive`, `CollectiveKind.isSupported` — what can be simulated, and how;
* `Group` — the systems that take part in collectives together.
-/

set_option relaxedAutoImplicit false
set_option autoImplicit false

namespace TraceReplay

/-- The kinds of collectives. -/
inductive CollectiveKind where
  | allReduce
  | allToAll
  | allGather
  | reduceScatter
  | broadcast
  | reduce
  | gather
  | barrier
  deriving DecidableEq, Repr

namespace CollectiveKind

/-- All kinds. -/
def all : List CollectiveKind :=
  [allReduce, allToAll, allGather, reduceScatter, broadcast, reduce, gather, barrier]

/-- The name of a kind, in traces and on display. -/
def name : CollectiveKind → String
  | allReduce => "all_reduce"
  | allToAll => "all_to_all"
  | allGather => "all_gather"
  | reduceScatter => "reduce_scatter"
  | broadcast => "broadcast"
  | reduce => "reduce"
  | gather => "gather"
  | barrier => "barrier"

/-- The kind with a given name. -/
def ofName? (s : String) : Option CollectiveKind := all.find? fun k => k.name = s

@[simp] theorem ofName?_name (k : CollectiveKind) : ofName? k.name = some k := by
  cases k <;> decide

/-- Whether kernels offer a primitive for the kind. -/
def hasPrimitive : CollectiveKind → Bool
  | allReduce | allToAll | allGather | reduceScatter => true
  | _ => false

/-- Whether the kind can be simulated at all. -/
def isSupported (k : CollectiveKind) : Bool := k.hasPrimitive || k = broadcast

end CollectiveKind

/-- The systems that take part in collectives together. -/
structure Group where
  id : Nat
  npus : List Nat
  deriving DecidableEq, Repr

/-- Number of systems in a group. -/
def Group.size (g : Group) : Nat := g.npus.length

end TraceReplay
