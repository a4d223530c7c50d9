/-
**Graphs whose nodes are changed.**

The graph looks at a node only for its id and its parents, when it is built, and for its tensor size.  A
change of nodes that keeps these may be made before the graph is built, or at any time later: it comes to
the same.

Main definitions:

* `Graph.mapNodes` — the graph with its nodes changed.

Main results:

* `Graph.ofNodes_map` — the graph of nodes that are changed;
* `Graph.freeDependents_mapNodes`, `Graph.remove_mapNodes` — the operations on it.
-/

import TraceReplay.Proofs.SortedMap
import TraceReplay.Trace.Graph

set_option relaxedAutoImplicit false
set_option autoImplicit false

namespace TraceReplay

namespace Graph

/-- The graph with its nodes changed. -/
def mapNodes (ν : Node → Node) (g : Graph) : Graph := { g with nodes := g.nodes.mapValues ν }

variable {ν : Node → Node} (g : Graph) (id : NodeId)

/-! ### Questions -/

@[simp] theorem lookup_mapNodes : (g.mapNodes ν).lookup id = (g.lookup id).map ν :=
  SortedMap.find?_mapValues ν g.nodes id

@[simp] theorem remaining_mapNodes : (g.mapNodes ν).remaining = g.remaining :=
  SortedMap.size_mapValues ν g.nodes

@[simp] theorem isEmpty_mapNodes : (g.mapNodes ν).isEmpty = g.isEmpty :=
  SortedMap.isEmpty_mapValues ν g.nodes

theorem mapNodes_id : g.mapNodes (fun n => n) = g :=
  congrArg (fun nodes => { g with nodes }) g.nodes.mapValues_id

theorem tensorSizeOf_mapNodes (hsize : ∀ n, (ν n).tensorSize = n.tensorSize) :
    (g.mapNodes ν).tensorSizeOf id = g.tensorSizeOf id := by
  simp only [tensorSizeOf, lookup_mapNodes, Option.map_map, Function.comp_def, hsize]
  rfl

/-! ### Operations -/

theorem resolve_mapNodes (child : NodeId) :
    (g.mapNodes ν).resolve child = (g.resolve child).map (mapNodes ν) := by
  simp only [resolve, mapNodes]
  cases g.unresolved.find? child with
  | none => rfl
  | some n =>
      dsimp only
      cases Counter.sub n 1 with
      | error f => rfl
      | ok left =>
          simp only [bind, Except.bind]
          split <;> rfl

theorem freeDependents_mapNodes :
    (g.mapNodes ν).freeDependents id = (g.freeDependents id).map (mapNodes ν) := by
  have hfold (cs : List NodeId) : ∀ g : Graph,
      cs.foldlM resolve (g.mapNodes ν) = (cs.foldlM resolve g).map (mapNodes ν) := by
    induction cs with
    | nil => exact fun _ => rfl
    | cons c cs ih =>
        intro g
        rw [List.foldlM_cons, List.foldlM_cons, resolve_mapNodes]
        cases g.resolve c with
        | error f => rfl
        | ok g' => exact ih g'
  rw [freeDependents, freeDependents]
  show (if id ∈ g.freed then _ else _) = _
  split
  · rfl
  · exact hfold (g.childrenOf id) { g with freed := id :: g.freed }

theorem remove_mapNodes (hsize : ∀ n, (ν n).tensorSize = n.tensorSize) :
    (g.mapNodes ν).remove id = (g.remove id).mapNodes ν := by
  rw [remove, remove, lookup_mapNodes]
  cases g.lookup id with
  | none => rfl
  | some n =>
      simp only [Option.map_some, mapNodes, hsize, SortedMap.mapValues_erase]

/-! ### Construction -/

variable {g id}

theorem foldlM_addNode_map (hid : ∀ n, (ν n).id = n.id) (ns : List Node) :
    ∀ m : SortedMap NodeId Node, (ns.map ν).foldlM addNode (m.mapValues ν) =
      (ns.foldlM addNode m).map (SortedMap.mapValues ν) := by
  induction ns with
  | nil => exact fun _ => rfl
  | cons n ns ih =>
      intro m
      rw [List.map_cons, List.foldlM_cons, List.foldlM_cons, addNode, addNode, hid,
        SortedMap.contains_mapValues]
      split
      · rfl
      · rw [← SortedMap.mapValues_insert]
        exact ih (m.insert n.id n)

theorem link_mapNodes (hid : ∀ n, (ν n).id = n.id)
    (hparents : ∀ n, (ν n).distinctParents = n.distinctParents) (g : Graph) (n : Node) :
    (g.mapNodes ν).link (ν n) = (g.link n).map (mapNodes ν) := by
  simp only [link, hid, hparents, mapNodes, SortedMap.contains_mapValues]
  split
  · rfl
  · split <;> rfl

/-- **A change of nodes that keeps ids and parents may be made before the graph is built.** -/
theorem ofNodes_map (hid : ∀ n, (ν n).id = n.id)
    (hparents : ∀ n, (ν n).distinctParents = n.distinctParents) (ns : List Node) :
    ofNodes (ns.map ν) = (ofNodes ns).map (mapNodes ν) := by
  have hlinks (ns : List Node) : ∀ g : Graph,
      (ns.map ν).foldlM link (g.mapNodes ν) = (ns.foldlM link g).map (mapNodes ν) := by
    induction ns with
    | nil => exact fun _ => rfl
    | cons n ns ih =>
        intro g
        rw [List.map_cons, List.foldlM_cons, List.foldlM_cons, link_mapNodes hid hparents]
        cases g.link n with
        | error x => rfl
        | ok g' => exact ih g'
  have hnodes := foldlM_addNode_map hid ns ∅
  rw [ofNodes, ofNodes]
  show ((ns.map ν).foldlM addNode (SortedMap.mapValues ν ∅) >>= _) = _
  rw [hnodes]
  cases ns.foldlM addNode ∅ with
  | error x => rfl
  | ok nodes =>
      show ((nodes.mapValues ν).values.foldlM link (mapNodes ν { nodes })) = _
      rw [SortedMap.values_mapValues, hlinks]
      rfl

end Graph

/-- What the engine is told of tensor sizes is the same if nodes keep theirs. -/
theorem Adapter.tensorSizeOf_mapNodes {ν : Node → Node}
    (hsize : ∀ n, (ν n).tensorSize = n.tensorSize) (adapter : Adapter) (g : Graph) :
    adapter.tensorSizeOf (g.mapNodes ν) = adapter.tensorSizeOf g := by
  funext id
  cases adapter with
  | full => exact Graph.tensorSizeOf_mapNodes g id hsize
  | readyOnly =>
      simp only [tensorSizeOf, Graph.lookup_mapNodes, Option.map_map, Function.comp_def, hsize]

/-- What the engine is told of the work left does not depend on the nodes. -/
theorem Adapter.hasRemainingWork_mapNodes (ν : Node → Node) (adapter : Adapter) (g : Graph) :
    adapter.hasRemainingWork (g.mapNodes ν) = adapter.hasRemainingWork g := by
  cases adapter with
  | full => rw [hasRemainingWork, hasRemainingWork, Graph.hasRemainingWork, Graph.isEmpty_mapNodes]; rfl
  | readyOnly => rfl

end TraceReplay
