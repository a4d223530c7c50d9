/-
**Operations in flight.**

Every operation with a token has a context, kept until the token comes back.  Every handle belongs to
a node; a node may have several handles out and is done when the last of them finishes.

Main definitions:

* `Context`, `InFlight` — the context of an operation, and the contexts by token;
* `InFlight.insert`, `InFlight.take` — a new token for a context, and the context of a token that
  comes back;
* `Gatherings` — handles out, and the number of them that each node has out;
* `Gatherings.register`, `Gatherings.complete` — a handle goes out, and finishes.
-/

import TraceReplay.Action
import TraceReplay.Counter
import TraceReplay.SortedMap

set_option relaxedAutoImplicit false
set_option autoImplicit false

namespace TraceReplay

/-- What is remembered of an operation until it completes. -/
structure Context where
  node : NodeId
  nodeClass : NodeClass
  expected : Expected
  deriving DecidableEq, Repr

/-- Contexts by the index of their token. -/
structure InFlight where
  /-- Tokens given out so far; the next token has this index. -/
  issued : Nat := 0
  contexts : SortedMap Nat Context := ∅

namespace InFlight

/-- Keeps a context under a new token. -/
def insert (f : InFlight) (context : Context) : Token × InFlight :=
  (⟨f.issued⟩, { issued := f.issued + 1, contexts := f.contexts.insert f.issued context })

/-- Gives up the context of a token that comes back with an event. -/
def take (f : InFlight) (token : Token) (event : Event) : Except Fault (Context × InFlight) :=
  match f.contexts.find? token.index with
  | none => .error (.tokenNotOut token)
  | some context =>
      if context.expected.admits event then
        .ok (context, { f with contexts := f.contexts.erase token.index })
      else .error (.wrongEvent context.node context.expected event)

/-- Number of operations in flight. -/
def size (f : InFlight) : Nat := f.contexts.size

/-- Whether none are in flight. -/
def isEmpty (f : InFlight) : Bool := f.contexts.isEmpty

end InFlight

/-- Handles out, by index, and how many of them each node has out. -/
structure Gatherings where
  handles : SortedMap Nat NodeId := ∅
  /-- The class of a node with handles out, and their number. -/
  outstanding : SortedMap NodeId (NodeClass × Nat) := ∅

namespace Gatherings

/-- A handle goes out for a node.  The class given with a node's first handle is kept. -/
def register (g : Gatherings) (handle : Handle) (node : NodeId) (nodeClass : NodeClass) :
    Except Fault Gatherings :=
  if g.handles.contains handle.index then .error (.handleTaken handle node)
  else
    let (c, n) := (g.outstanding.find? node).getD (nodeClass, 0)
    .ok {
      handles := g.handles.insert handle.index node
      outstanding := g.outstanding.insert node (c, n + 1) }

/-- A handle finishes.  The answer is its node, if no other handle of it is out. -/
def complete (handle : Handle) : Action Fault Gatherings (Option (NodeId × NodeClass)) := do
  let g ← Action.get
  match g.handles.find? handle.index with
  | none => throw (.handleNotOut handle)
  | some node =>
      match g.outstanding.find? node with
      | none => throw (.noHandlesOut node)
      | some (nodeClass, n) =>
          let left ← Action.lift (Counter.sub n 1)
          let handles := g.handles.erase handle.index
          if left = 0 then
            Action.put { handles, outstanding := g.outstanding.erase node }
            return some (node, nodeClass)
          else
            Action.put { handles, outstanding := g.outstanding.insert node (nodeClass, left) }
            Action.note (.handleDone node handle left)
            return none

/-- Whether a handle is out. -/
def contains (g : Gatherings) (handle : Handle) : Bool := g.handles.contains handle.index

/-- Whether no handles are out. -/
def isEmpty (g : Gatherings) : Bool := g.handles.isEmpty

/-- Number of nodes with handles out. -/
def pendingNodes (g : Gatherings) : Nat := g.outstanding.size

end Gatherings

end TraceReplay
