/-
**The dependency graph.**

The graph knows the nodes that are left, the children of each node, how many parents each waiting
node still waits for, and the queue of nodes that wait for none.  The engine takes nodes from the
front of the queue and gives back at the end those it cannot issue.  When a node is done its children
are told once; a child whose last parent this was joins the queue.

Main definitions:

* `Node.distinctParents` — the parents of a node, ascending, each once;
* `Graph` — the graph;
* `Graph.ofNodes` — the graph of a list of nodes, unless ids repeat or parents are missing;
* `Graph.takeReady?`, `Graph.pushBack`, `Graph.freeDependents`, `Graph.remove` — the operations;
* `Graph.work` — nodes queued or waiting, which no operation but `pushBack` increases;
* `Adapter` — what the engine is told about the graph.
-/

import TraceReplay.Ascending
import TraceReplay.Counter
import TraceReplay.Error
import TraceReplay.SortedMap
import TraceReplay.Trace.Node

set_option relaxedAutoImplicit false
set_option autoImplicit false

namespace TraceReplay

/-- The parents of a node in ascending order, each once, whichever list names them. -/
def Node.distinctParents (n : Node) : List NodeId := ascending n.parents

/-- A dependency graph in use. -/
structure Graph where
  /-- Nodes not yet removed. -/
  nodes : SortedMap NodeId Node := ∅
  /-- Nodes that depend on a node, ascending. -/
  children : SortedMap NodeId (List NodeId) := ∅
  /-- How many parents a waiting node still waits for. -/
  unresolved : SortedMap NodeId Nat := ∅
  /-- Nodes that wait for none, first to be offered first. -/
  ready : List NodeId := []
  /-- Nodes whose children have been told. -/
  freed : List NodeId := []
  /-- Tensor sizes of removed nodes. -/
  retired : SortedMap NodeId Nat := ∅

namespace Graph

/-! ### Construction -/

/-- Adds a node whose id is new. -/
def addNode (nodes : SortedMap NodeId Node) (n : Node) :
    Except ReplayError (SortedMap NodeId Node) :=
  if nodes.contains n.id then .error (.traceLoad s!"duplicate node id {n.id}")
  else .ok (nodes.insert n.id n)

/-- Enters a node as a child of one of its parents. -/
def adopt (child : NodeId) (children : SortedMap NodeId (List NodeId)) (parent : NodeId) :
    SortedMap NodeId (List NodeId) :=
  children.insert parent (((children.find? parent).getD []) ++ [child])

/-- Enters a node's dependencies, which have to be known: the smallest unknown one is named. -/
def link (g : Graph) (n : Node) : Except ReplayError Graph :=
  match n.distinctParents.find? fun p => !g.nodes.contains p with
  | some p => .error (.traceLoad s!"node {n.id} depends on unknown node {p}")
  | none =>
      if n.distinctParents = [] then .ok { g with ready := g.ready ++ [n.id] }
      else
        .ok { g with
          children := n.distinctParents.foldl (adopt n.id) g.children
          unresolved := g.unresolved.insert n.id n.distinctParents.length }

/-- The graph of a list of nodes. -/
def ofNodes (ns : List Node) : Except ReplayError Graph := do
  let nodes ← ns.foldlM addNode ∅
  nodes.values.foldlM link { nodes }

/-! ### Questions -/

/-- The node with an id, unless it was removed. -/
def lookup (g : Graph) (id : NodeId) : Option Node := g.nodes.find? id

/-- The children of a node, ascending. -/
def childrenOf (g : Graph) (id : NodeId) : List NodeId := (g.children.find? id).getD []

/-- Tensor size of a node, also after its removal. -/
def tensorSizeOf (g : Graph) (id : NodeId) : Option Nat :=
  ((g.lookup id).map Node.tensorSize).or (g.retired.find? id)

/-- Number of nodes not yet removed. -/
def remaining (g : Graph) : Nat := g.nodes.size

/-- Whether there are no nodes left. -/
def isEmpty (g : Graph) : Bool := g.nodes.isEmpty

/-- Whether nodes are left or queued. -/
def hasRemainingWork (g : Graph) : Bool := !g.isEmpty || !g.ready.isEmpty

/-- Number of nodes queued or waiting. -/
def work (g : Graph) : Nat := g.ready.length + g.unresolved.size

/-! ### Operations -/

/-- Takes the node at the front of the queue. -/
def takeReady? (g : Graph) : Option (NodeId × Graph) :=
  match g.ready with
  | [] => none
  | id :: rest => some (id, { g with ready := rest })

/-- Gives back a node that could not be issued. -/
def pushBack (g : Graph) (id : NodeId) : Graph := { g with ready := g.ready ++ [id] }

/-- Tells a child that one of its parents is done. -/
def resolve (g : Graph) (child : NodeId) : Except Fault Graph :=
  match g.unresolved.find? child with
  | none => .ok g
  | some n => do
      let left ← Counter.sub n 1
      if left = 0 then
        return { g with unresolved := g.unresolved.erase child, ready := g.ready ++ [child] }
      else return { g with unresolved := g.unresolved.insert child left }

/-- Tells the children of a node that it is done, which may happen once. -/
def freeDependents (g : Graph) (id : NodeId) : Except Fault Graph :=
  if id ∈ g.freed then .error (.freedTwice id)
  else (g.childrenOf id).foldlM resolve { g with freed := id :: g.freed }

/-- Drops a node; its tensor size stays known. -/
def remove (g : Graph) (id : NodeId) : Graph :=
  match g.lookup id with
  | none => g
  | some n =>
      { g with nodes := g.nodes.erase id, retired := g.retired.insert id n.tensorSize }

end Graph

/-- What the engine is told about the graph. -/
inductive Adapter where
  /-- Everything the graph knows. -/
  | full
  /-- Only queued nodes count as work, and removed nodes are forgotten. -/
  | readyOnly
  deriving DecidableEq, Repr

namespace Adapter

/-- Whether the engine is told of work that is left. -/
def hasRemainingWork : Adapter → Graph → Bool
  | full, g => g.hasRemainingWork
  | readyOnly, g => !g.ready.isEmpty

/-- The tensor size that the engine is told. -/
def tensorSizeOf : Adapter → Graph → NodeId → Option Nat
  | full, g, id => g.tensorSizeOf id
  | readyOnly, g, id => (g.lookup id).map Node.tensorSize

end Adapter

end TraceReplay
