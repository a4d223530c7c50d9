/-
**Where the nodes of a trace are.**

The graph, the queue and the records describe the same thing from different sides: how far each node of
the trace has come.  `Lifecycle` says how they fit together, at every moment of a run: a node is queued
or put aside, once, exactly if it waits for none and has no record; the nodes whose children have been
told are those that ended, but for the ones that are about to be told; the graph still has all the
others.

Main definitions:

* `Record.running`, `Record.ended` — whether a node has a record without, or with, an end;
* `Lifecycle` — how graph, queue and records fit together.

Main results:

* `Lifecycle.start`, `Lifecycle.close`, `Lifecycle.free`, `Lifecycle.remove` — the four stages of a
  node's life keep it;
* `Lifecycle.skip` — skipping a node is going through all of them at once.
-/

import TraceReplay.Proofs.Graph.Readiness
import TraceReplay.Statistics.Basic

set_option relaxedAutoImplicit false
set_option autoImplicit false

namespace TraceReplay

/-! ### Records -/

namespace Record

/-- Whether a node has a record without an end. -/
def running (records : SortedMap NodeId Record) (id : NodeId) : Bool :=
  (records.find? id).any fun r => r.finish.isNone

/-- Whether a node has a record with an end. -/
def ended (records : SortedMap NodeId Record) (id : NodeId) : Bool :=
  (records.find? id).any fun r => r.finish.isSome

variable {records : SortedMap NodeId Record} {id id' : NodeId} {r : Record}

theorem running_insert : running (records.insert id r) id' =
    if id' = id then r.finish.isNone else running records id' := by
  rw [running, running, SortedMap.find?_insert]
  split <;> rfl

theorem ended_insert : ended (records.insert id r) id' =
    if id' = id then r.finish.isSome else ended records id' := by
  rw [ended, ended, SortedMap.find?_insert]
  split <;> rfl

theorem running_of_none (h : records.find? id = none) : running records id = false := by
  rw [running, h]
  rfl

theorem ended_of_none (h : records.find? id = none) : ended records id = false := by
  rw [ended, h]
  rfl

theorem running_iff :
    running records id = true ↔ ∃ r, records.find? id = some r ∧ r.finish = none := by
  simp [running, Option.any_eq_true]

theorem ended_iff :
    ended records id = true ↔ ∃ r finish, records.find? id = some r ∧ r.finish = some finish := by
  simp only [ended, Option.any_eq_true, Option.isSome_iff_exists]
  constructor
  · rintro ⟨r, hr, finish, hf⟩
    exact ⟨r, finish, hr, hf⟩
  · rintro ⟨r, finish, hr, hf⟩
    exact ⟨r, hr, finish, hf⟩

theorem finish_of_running (h : running records id = true) (hr : records.find? id = some r) :
    r.finish = none := by
  simpa [running, hr] using h

/-- A record either has an end or has none. -/
theorem ended_of_running (h : running records id = true) : ended records id = false := by
  obtain ⟨r, hr, hf⟩ := running_iff.1 h
  simp [ended, hr, hf]

theorem eq_none_of (hrunning : running records id = false) (hended : ended records id = false) :
    records.find? id = none := by
  rw [running] at hrunning
  rw [ended] at hended
  cases hr : records.find? id with
  | none => rfl
  | some r =>
      rw [hr, Option.any_some] at hrunning hended
      cases hfinish : r.finish with
      | none => rw [hfinish] at hrunning; cases hrunning
      | some finish => rw [hfinish] at hended; cases hended

end Record

/-! ### Graph, queue and records -/

/-- How graph, queue and records fit together, where some nodes have been put aside, others have ended
without their children having been told, and others are about to be removed. -/
structure Lifecycle (g₀ g : Graph) (records : SortedMap NodeId Record) (aside : List NodeId)
    (unfreed : List (NodeId × NodeClass)) (lingering : List NodeId) : Prop where
  /-- Counts are exact. -/
  counts : g₀.Counts g
  /-- No node is queued twice. -/
  nodup : (g.ready ++ aside).Nodup
  /-- Nodes are queued that wait for none and have no record. -/
  queued : ∀ id, id ∈ g.ready ++ aside ↔ g₀.Unblocked g.freed id ∧ records.find? id = none
  /-- Children are told of nodes that ended. -/
  freed : ∀ id, id ∈ g.freed ↔ Record.ended records id = true ∧ id ∉ unfreed.map Prod.fst
  ended : ∀ id ∈ unfreed.map Prod.fst, Record.ended records id = true
  once : (unfreed.map Prod.fst).Nodup
  /-- Nodes with a record wait for none. -/
  started : ∀ id r, records.find? id = some r → g₀.Unblocked g.freed id ∧ r.node = id
  /-- Nodes are removed after their children have been told. -/
  present : ∀ id, g.lookup id = if id ∈ g.freed ∧ id ∉ lingering then none else g₀.lookup id
  told : ∀ id ∈ lingering, id ∈ g.freed
  last : lingering.Nodup
  /-- Tensor sizes stay known. -/
  sizes : ∀ id, g.tensorSizeOf id = g₀.tensorSizeOf id
  /-- Nodes end after their parents. -/
  order : g₀.Topological g.freed

namespace Lifecycle

variable {ns : List Node} {g₀ g : Graph} {records : SortedMap NodeId Record} {aside : List NodeId}
variable {unfreed : List (NodeId × NodeClass)} {lingering : List NodeId} {id : NodeId}

/-- Before anything is done. -/
theorem initial (hb : g₀.Built ns) : Lifecycle g₀ g₀ ∅ [] [] [] := by
  have hfreed := hb.freed
  refine ⟨hb.counts, ?_, fun id => ?_, fun id => ?_, ?_, .nil, ?_, fun id => ?_, ?_, .nil,
    fun id => rfl, ?_⟩
  · rw [List.append_nil]
    exact hb.ready_ascending.imp fun h => Nat.ne_of_lt h
  · simp [hb.mem_ready, Graph.Unblocked, hfreed, List.eq_nil_iff_forall_not_mem]
  · simp [hfreed, Record.ended_of_none (SortedMap.find?_empty id)]
  · simp
  · simp
  · simp [hfreed]
  · simp
  · rw [hfreed]
    exact .nil

/-- The order of the queue does not matter, nor which of its nodes have been put aside. -/
theorem reorder (h : Lifecycle g₀ g records aside unfreed lingering) {ready aside' : List NodeId}
    (hperm : (ready ++ aside').Perm (g.ready ++ aside)) :
    Lifecycle g₀ { g with ready } records aside' unfreed lingering :=
  { h with
    counts := ⟨h.counts.children, h.counts.unresolved⟩
    nodup := hperm.nodup_iff.2 h.nodup
    queued := fun id => hperm.mem_iff.trans (h.queued id) }

theorem new_of_front (h : Lifecycle g₀ g records aside unfreed lingering) {rest : List NodeId}
    (hready : g.ready = id :: rest) : g₀.Unblocked g.freed id ∧ records.find? id = none :=
  (h.queued id).1 (by simp [hready])

theorem notMem_freed_of_none (h : Lifecycle g₀ g records aside unfreed lingering)
    (hnone : records.find? id = none) : id ∉ g.freed := by
  intro hmem
  have hended := ((h.freed id).1 hmem).1
  rw [Record.ended_of_none hnone] at hended
  cases hended

/-- The children of a node that has not told them yet can be told. -/
theorem freeable (hb : g₀.Built ns) (h : Lifecycle g₀ g records aside unfreed lingering)
    (hid : id ∉ g.freed) (ready : List NodeId) :
    ∃ g', { g with ready }.freeDependents id = .ok g' := by
  have hcounts : g₀.Counts { g with ready } := ⟨h.counts.children, h.counts.unresolved⟩
  obtain ⟨unresolved, hok, -⟩ := hcounts.freeDependents hb hid
  exact ⟨_, hok⟩

/-- The node at the front of the queue is issued. -/
theorem start (h : Lifecycle g₀ g records aside unfreed lingering) {rest : List NodeId}
    (hready : g.ready = id :: rest) {r : Record} (hr : r.finish = none) (hid : r.node = id) :
    Lifecycle g₀ { g with ready := rest } (records.insert id r) aside unfreed lingering := by
  obtain ⟨hunblocked, hnew⟩ := h.new_of_front hready
  have hnodup := h.nodup
  rw [hready, List.cons_append, List.nodup_cons] at hnodup
  have hended : ∀ id', Record.ended (records.insert id r) id' = Record.ended records id' := by
    intro id'
    rw [Record.ended_insert]
    split
    next heq => rw [heq, hr, Record.ended_of_none hnew]; rfl
    next => rfl
  exact { h with
    counts := ⟨h.counts.children, h.counts.unresolved⟩
    nodup := hnodup.2
    queued := by
      intro id'
      have hmem := h.queued id'
      rw [hready, List.cons_append, List.mem_cons] at hmem
      rw [SortedMap.find?_insert]
      by_cases heq : id' = id
      · subst heq
        simp [hnodup.1]
      · simpa [heq] using hmem
    freed := fun id' => by rw [hended]; exact h.freed id'
    ended := fun id' hid' => by rw [hended]; exact h.ended id' hid'
    started := by
      intro id' r' hr'
      rcases SortedMap.eq_or_find?_of_insert hr' with ⟨rfl, rfl⟩ | hr'
      · exact ⟨hunblocked, hid⟩
      · exact h.started id' r' hr' }

/-- A node in flight ends. -/
theorem close (h : Lifecycle g₀ g records aside unfreed lingering) {r : Record}
    (hr : records.find? id = some r) (hrunning : r.finish = none) (tick : Tick) (c : NodeClass) :
    Lifecycle g₀ g (records.insert id { r with finish := some tick }) aside ((id, c) :: unfreed)
      lingering := by
  have hnot : Record.ended records id = false := by
    simp [Record.ended, hr, hrunning]
  have hnew : id ∉ unfreed.map Prod.fst := by
    intro hmem
    rw [h.ended id hmem] at hnot
    cases hnot
  exact { h with
    queued := by
      intro id'
      rw [h.queued id', SortedMap.find?_insert]
      by_cases heq : id' = id
      · subst heq
        simp [hr]
      · simp [heq]
    freed := by
      intro id'
      rw [h.freed id', Record.ended_insert, List.map_cons, List.mem_cons]
      by_cases heq : id' = id
      · subst heq
        simp [hnot]
      · simp [heq]
    ended := by
      intro id' hid'
      rw [List.map_cons, List.mem_cons] at hid'
      rw [Record.ended_insert]
      split
      · rfl
      next heq => exact h.ended id' (hid'.resolve_left heq)
    once := List.nodup_cons.2 ⟨hnew, h.once⟩
    started := by
      intro id' r' hr'
      rcases SortedMap.eq_or_find?_of_insert hr' with ⟨rfl, rfl⟩ | hr'
      · exact h.started id' r hr
      · exact h.started id' r' hr' }

theorem notMem_freed (h : Lifecycle g₀ g records aside unfreed lingering)
    (hid : id ∈ unfreed.map Prod.fst) : id ∉ g.freed :=
  fun hmem => ((h.freed id).1 hmem).2 hid

/-- The children of a node that ended are told. -/
theorem free {c : NodeClass} (hb : g₀.Built ns)
    (h : Lifecycle g₀ g records aside ((id, c) :: unfreed) lingering) {g' : Graph}
    (hfree : g.freeDependents id = .ok g') :
    Lifecycle g₀ g' records aside unfreed (id :: lingering) := by
  have hid : id ∉ g.freed := h.notMem_freed List.mem_cons_self
  have hended : Record.ended records id = true := h.ended id List.mem_cons_self
  have honce := List.nodup_cons.1 h.once
  obtain ⟨unresolved, hok, hcounts⟩ := h.counts.freeDependents hb hid
  cases hfree.symm.trans hok
  have hnow := Graph.unblocked_cons hb hid
  -- the children that join the queue waited before
  have hblocked : ∀ c, g₀.awaited g.freed c = some 1 → ¬g₀.Unblocked g.freed c := by
    intro c hc hunblocked
    rw [hunblocked.awaited] at hc
    cases hc
  have hjoin : ∀ id', id' ∈ (g₀.childrenOf id).filter (fun c => g₀.awaited g.freed c = some 1) ↔
      id' ∈ g₀.childrenOf id ∧ g₀.awaited g.freed id' = some 1 := by
    simp [List.mem_filter]
  have hperm : ∀ joined : List NodeId,
      (g.ready ++ joined ++ aside).Perm (g.ready ++ aside ++ joined) := fun joined => by
    rw [List.append_assoc, List.append_assoc]
    exact List.perm_append_comm.append_left _
  exact {
    counts := ⟨h.counts.children, hcounts⟩
    nodup := by
      refine (hperm _).nodup_iff.2 (List.nodup_append.2
        ⟨h.nodup, (hb.nodup_childrenOf id).filter _, ?_⟩)
      rintro id' hqueued _ hjoined rfl
      exact hblocked id' ((hjoin id').1 hjoined).2 ((h.queued id').1 hqueued).1
    queued := by
      intro id'
      rw [(hperm _).mem_iff, List.mem_append, h.queued id', hjoin id', hnow id']
      constructor
      · rintro (⟨hunblocked, hnone⟩ | hchild)
        · exact ⟨.inl hunblocked, hnone⟩
        · refine ⟨.inr hchild, Option.eq_none_iff_forall_ne_some.2 fun r hr => ?_⟩
          exact hblocked id' hchild.2 (h.started id' r hr).1
      · rintro ⟨hunblocked | hchild, hnone⟩
        · exact .inl ⟨hunblocked, hnone⟩
        · exact .inr hchild
    freed := by
      intro id'
      have hfreed := h.freed id'
      rw [List.map_cons, List.mem_cons] at hfreed
      rw [List.mem_cons]
      by_cases heq : id' = id
      · subst heq
        simp [hended, honce.1]
      · simpa [heq] using hfreed
    ended := fun id' hid' => h.ended id' (List.mem_cons_of_mem _ hid')
    once := honce.2
    started := fun id' r hr => ⟨(h.started id' r hr).1.cons id, (h.started id' r hr).2⟩
    present := by
      intro id'
      refine (h.present id').trans ?_
      by_cases heq : id' = id
      · subst heq
        simp [hid]
      · simp [heq]
    told := by
      intro id' hid'
      rcases List.mem_cons.1 hid' with rfl | hid'
      · exact List.mem_cons_self
      · exact List.mem_cons_of_mem _ (h.told id' hid')
    last := List.nodup_cons.2 ⟨fun hmem => hid (h.told id hmem), h.last⟩
    sizes := h.sizes
    order := by
      obtain ⟨r, -, hr, -⟩ := Record.ended_iff.1 hended
      exact .cons hid (h.started id r hr).1 h.order }

/-- A node whose children have been told is removed. -/
theorem remove (h : Lifecycle g₀ g records aside unfreed (id :: lingering)) :
    Lifecycle g₀ (g.remove id) records aside unfreed lingering := by
  have hlast := List.nodup_cons.1 h.last
  exact { h with
    counts := h.counts.remove id
    nodup := by rw [Graph.ready_remove]; exact h.nodup
    queued := fun id' => by rw [Graph.ready_remove, Graph.freed_remove]; exact h.queued id'
    freed := fun id' => by rw [Graph.freed_remove]; exact h.freed id'
    started := fun id' r hr => by rw [Graph.freed_remove]; exact h.started id' r hr
    present := by
      intro id'
      rw [Graph.lookup_remove, h.present id', Graph.freed_remove]
      by_cases heq : id' = id
      · subst heq
        simp [h.told id' List.mem_cons_self, hlast.1]
      · simp [heq]
    told := fun id' hid' => by rw [Graph.freed_remove]; exact h.told id' (List.mem_cons_of_mem _ hid')
    last := hlast.2
    sizes := fun id' => by rw [Graph.tensorSizeOf_remove]; exact h.sizes id'
    order := by rw [Graph.freed_remove]; exact h.order }

/-- Skipping a node is issuing, closing, freeing and removing it at once. -/
theorem skip (hb : g₀.Built ns) (h : Lifecycle g₀ g records aside unfreed lingering)
    {rest : List NodeId} (hready : g.ready = id :: rest) {r : Record} {tick : Tick}
    (hr : r.finish = some tick) (hid : r.node = id) {g' : Graph}
    (hfree : { g with ready := rest }.freeDependents id = .ok g') :
    Lifecycle g₀ (g'.remove id) (records.insert id r) aside unfreed lingering := by
  have hstart := h.start hready (r := { r with finish := none }) rfl hid
  have hclose := hstart.close (SortedMap.find?_insert_self _ _ _) rfl tick .invalid
  rw [SortedMap.insert_insert, show { r with finish := some tick } = r by rw [← hr]] at hclose
  exact (hclose.free hb hfree).remove

end Lifecycle

end TraceReplay
