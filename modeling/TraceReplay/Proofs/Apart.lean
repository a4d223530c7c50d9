/-
**Traces that have nothing to do with each other.**

Two accepted traces without a common id can be replayed as one.  Neither depends on the other, because
each knows all its parents.  If moreover no resource is used by nodes of both, one of them is a part of
the whole that lives apart.  This module says so of what the engine looks at: the nodes of the part, their
children, the counts of parents they wait for, the queue at the beginning, the plans, and the slots of the
resources that they use.

Main definitions:

* `Setup.withTrace` — the same configuration with another trace;
* `Setup.owns` — the nodes of a setup;
* `Setup.Apart` — a setup is a part of another and lives apart from its other nodes.

Main results:

* `Setup.Apart.owns_parent` — dependencies do not leave the part;
* `Setup.Apart.childrenOf_eq`, `Setup.Apart.awaited_eq`, `Setup.Apart.ready_eq` — the graph of the part;
* `Setup.Apart.planOf_eq` — its plans;
* `Setup.Apart.runningOn_eq` — its resources.
-/

import TraceReplay.Proofs.BadNodes
import TraceReplay.Proofs.Preflight

set_option relaxedAutoImplicit false
set_option autoImplicit false

namespace TraceReplay

namespace Setup

/-! ### Parts -/

/-- The same configuration with another trace, if that is accepted. -/
def withTrace (s : Setup) {ns : List Node} {g : Graph} (accepted : Graph.ofNodes ns = .ok g) : Setup where
  trace := ns
  files := s.files
  config := s.config
  graph := g
  workload := { s.workload with graph := g }
  entries := s.entries
  accepted := accepted
  created := Workload.create_withGraph s.created g

/-- Whether an id is the id of a node of the trace. -/
def owns (s : Setup) (id : NodeId) : Bool := (s.graph.lookup id).isSome

theorem owns_of_lookup {s : Setup} {id : NodeId} {n : Node} (h : s.graph.lookup id = some n) :
    s.owns id = true := by
  rw [owns, h]
  rfl

/-- A setup is a part of another one with some other nodes.  These have other ids, because both traces
are accepted; they are complete without the part, and use other resources. -/
structure Apart (part whole : Setup) (rest : List Node) : Prop where
  config : part.config = whole.config
  group : part.workload.group = whole.workload.group
  union : whole.trace.Perm (part.trace ++ rest)
  accepted : ∃ g, Graph.ofNodes rest = .ok g
  resources : ∀ n ∈ part.trace, ∀ n' ∈ rest, ∀ r, Resource.ofClass? n.nodeClass = some r →
    Resource.ofClass? n'.nodeClass ≠ some r

namespace Apart

variable {part whole : Setup} {rest : List Node} (h : part.Apart whole rest)

include h

/-! ### Nodes -/

theorem mem_trace {n : Node} : n ∈ whole.trace ↔ n ∈ part.trace ∨ n ∈ rest :=
  h.union.mem_iff.trans List.mem_append

/-- The nodes of the part are nodes of the whole. -/
theorem lookup_of_part {id : NodeId} {n : Node} (hn : part.graph.lookup id = some n) :
    whole.graph.lookup id = some n := by
  obtain ⟨hmem, hid⟩ := (part.built.lookup_iff id n).1 hn
  exact (whole.built.lookup_iff id n).2 ⟨h.mem_trace.2 (.inl hmem), hid⟩

theorem lookup_eq {id : NodeId} (hid : part.owns id = true) :
    whole.graph.lookup id = part.graph.lookup id := by
  obtain ⟨n, hn⟩ := Option.isSome_iff_exists.1 hid
  rw [hn, h.lookup_of_part hn]

/-- The other nodes are not nodes of the part. -/
theorem owns_of_rest {n : Node} (hn : n ∈ rest) : part.owns n.id = false := by
  rw [owns, Option.isSome_eq_false_iff, Option.isNone_iff_eq_none, Option.eq_none_iff_forall_ne_some]
  intro n' hn'
  obtain ⟨hmem, hid⟩ := (part.built.lookup_iff n.id n').1 hn'
  have hnodup := (h.union.map Node.id).nodup_iff.1 whole.built.distinct
  rw [List.map_append, List.nodup_append] at hnodup
  exact hnodup.2.2 _ (List.mem_map_of_mem hmem) _ (List.mem_map_of_mem hn) hid

theorem mem_rest {id : NodeId} {n : Node} (hn : whole.graph.lookup id = some n)
    (hid : part.owns id = false) : n ∈ rest := by
  obtain ⟨hmem, hid'⟩ := (whole.built.lookup_iff id n).1 hn
  rcases h.mem_trace.1 hmem with hpart | hrest
  · rw [owns_of_lookup ((part.built.lookup_iff id n).2 ⟨hpart, hid'⟩)] at hid
    cases hid
  · exact hrest

/-! ### Dependencies -/

/-- **Dependencies do not leave the part**, and do not enter it. -/
theorem owns_parent {id p : NodeId} {n : Node} (hn : whole.graph.lookup id = some n)
    (hp : p ∈ n.parents) : part.owns p = part.owns id := by
  cases hid : part.owns id with
  | true =>
      rw [h.lookup_eq hid] at hn
      exact part.built.parents_known n ((part.built.lookup_iff id n).1 hn).1 p hp
  | false =>
      obtain ⟨g, hg⟩ := h.accepted
      have built := Graph.built_of_ofNodes hg
      obtain ⟨n', hn'⟩ := Option.isSome_iff_exists.1
        (built.parents_known n (h.mem_rest hn hid) p hp)
      obtain ⟨hmem, rfl⟩ := (built.lookup_iff p n').1 hn'
      exact h.owns_of_rest hmem

theorem owns_child {p c : NodeId} (hc : c ∈ whole.graph.childrenOf p) :
    part.owns c = part.owns p := by
  obtain ⟨n, hn, hp⟩ := (whole.built.mem_childrenOf p c).1 hc
  exact (h.owns_parent hn hp).symm

theorem childrenOf_eq {p : NodeId} (hp : part.owns p = true) :
    whole.graph.childrenOf p = part.graph.childrenOf p := by
  refine eq_of_mem_iff_of_pairwise (whole.built.childrenOf_ascending p)
    (part.built.childrenOf_ascending p) fun c => ?_
  rw [part.built.mem_childrenOf]
  constructor
  · intro hc
    obtain ⟨n, hn, hparent⟩ := (whole.built.mem_childrenOf p c).1 hc
    exact ⟨n, by rw [← h.lookup_eq ((h.owns_child hc).trans hp), hn], hparent⟩
  · rintro ⟨n, hn, hparent⟩
    exact (whole.built.mem_childrenOf p c).2 ⟨n, h.lookup_of_part hn, hparent⟩

/-- The queue of the part is its share of the queue of the whole. -/
theorem ready_eq : whole.graph.ready.filter part.owns = part.graph.ready := by
  refine eq_of_mem_iff_of_pairwise (whole.built.ready_ascending.filter _) part.built.ready_ascending
    fun id => ?_
  rw [List.mem_filter, whole.built.mem_ready, part.built.mem_ready]
  constructor
  · rintro ⟨⟨n, hn, hparents⟩, hid⟩
    exact ⟨n, by rw [← h.lookup_eq hid, hn], hparents⟩
  · rintro ⟨n, hn, hparents⟩
    exact ⟨⟨n, h.lookup_of_part hn, hparents⟩, owns_of_lookup hn⟩

/-- A node of the part waits for as many parents as in the part. -/
theorem awaited_eq {done done' : List NodeId}
    (same : ∀ p, part.owns p = true → (p ∈ done ↔ p ∈ done')) {id : NodeId}
    (hid : part.owns id = true) : whole.graph.awaited done id = part.graph.awaited done' id := by
  obtain ⟨n, hn⟩ := Option.isSome_iff_exists.1 hid
  have hwhole := h.lookup_of_part hn
  have hcount : n.waitsFor done = n.waitsFor done' := by
    refine List.countP_congr fun p hp => ?_
    have howns := (h.owns_parent hwhole (Node.mem_distinctParents.1 hp)).trans hid
    simp only [same p howns]
  rw [Graph.awaited, Graph.awaited, hwhole, hn, Option.bind_some, Option.bind_some, hcount]

/-! ### Plans -/

theorem planOf_eq {id : NodeId} {n : Node} (hn : part.graph.lookup id = some n) :
    whole.workload.planOf n = part.workload.planOf n := by
  rw [planOf_eq_ofNode, planOf_eq_ofNode, ← h.config]
  refine Plan.ofNode_congr_sizes (fun p hp => ?_) _
  have howns := (h.owns_parent (h.lookup_of_part hn) (List.mem_append_left n.ctrlDeps hp)).trans
    (owns_of_lookup hn)
  rw [Graph.tensorSizeOf, Graph.tensorSizeOf, h.lookup_eq howns, whole.built.retired,
    part.built.retired]

theorem skips_iff {id : NodeId} {n : Node} (hn : part.graph.lookup id = some n) :
    whole.workload.Skips n ↔ part.workload.Skips n := by
  simp only [Workload.Skips, h.planOf_eq hn, Setup.forgives_eq, h.config]

/-! ### Resources -/

/-- **The nodes in flight that use a resource of the part are nodes of the part.** -/
theorem runningOn_eq {records records' : SortedMap NodeId Record}
    (same : ∀ id, part.owns id = true → records.find? id = records'.find? id) {n : Node}
    (hn : n ∈ part.trace) {r : Resource} (hr : Resource.ofClass? n.nodeClass = some r) :
    runningOn whole.graph records r = runningOn part.graph records' r := by
  have owned {id : NodeId} (huses : resourceOf whole.graph id = some r) : part.owns id = true := by
    obtain ⟨n', hn', huses⟩ := Option.bind_eq_some_iff.1 huses
    by_contra hother
    rw [Bool.not_eq_true] at hother
    exact h.resources n hn n' (h.mem_rest hn' hother) r hr huses
  have owned' {id : NodeId} (huses : resourceOf part.graph id = some r) : part.owns id = true := by
    obtain ⟨n', hn', -⟩ := Option.bind_eq_some_iff.1 huses
    exact owns_of_lookup hn'
  have uses {id : NodeId} (hid : part.owns id = true) :
      resourceOf whole.graph id = resourceOf part.graph id := by
    rw [resourceOf, resourceOf, h.lookup_eq hid]
  refine SortedMap.count_congr fun id record => ?_
  simp only [Bool.and_eq_true, decide_eq_true_eq]
  constructor
  · rintro ⟨hfind, hopen, huses⟩
    have hid := owned huses
    exact ⟨same id hid ▸ hfind, hopen, uses hid ▸ huses⟩
  · rintro ⟨hfind, hopen, huses⟩
    have hid := owned' huses
    exact ⟨(same id hid).symm ▸ hfind, hopen, (uses hid).symm ▸ huses⟩

end Apart

end Setup

end TraceReplay
