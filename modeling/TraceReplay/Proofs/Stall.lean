/-
**Runs that come to rest.**

A run without errors comes to rest when everything that it asked of the kernel has come back.  Then no
slot is taken, so no node is left in the queue, and whatever node has not ended waits for a parent that
has not either.  Therefore the nodes that are left are those on a cycle of dependencies and those after
one; if there are none the run has finished.

Main definitions:

* `Setup.Replayed` — the nodes that are neither stuck nor skipped;
* `Answered` — everything asked of the kernel has come back;
* `deliveries` — the number of completions that were handed over;
* `Exhausted` — how a run is left that has come to rest.

Main results:

* `AtRest.deliveries_le`, `AtRest.answered_of_deliveries` — there are never more completions than nodes
  replayed, and after as many the run has come to rest;
* `AtRest.exhausted` — a run that has come to rest has done all that can be done.
-/

import Mathlib.Data.Set.Card
import TraceReplay.Proofs.Dependencies
import TraceReplay.Proofs.Engine.Run

set_option relaxedAutoImplicit false
set_option autoImplicit false

namespace TraceReplay

namespace Setup

/-- The nodes that are neither stuck nor skipped. -/
def Replayed (s : Setup) (id : NodeId) : Prop :=
  ¬s.Stuck id ∧ ∃ n ∈ s.trace, n.id = id ∧ ¬s.workload.Skips n

theorem finite_replayed (s : Setup) : {id | s.Replayed id}.Finite := by
  refine (s.trace.map Node.id).finite_toSet.subset ?_
  rintro id ⟨-, n, hn, hid, -⟩
  exact List.mem_map.2 ⟨n, hn, hid⟩

/-- Every resource has a slot. -/
theorem capacity_pos (s : Setup) (r : Resource) : 0 < s.config.resources.get r := by
  have hvalid : s.config.resources.validate = .ok () := by
    have hconfig := s.created_iff.1
    unfold EngineConfig.validate at hconfig
    cases hresources : s.config.resources.validate with
    | ok _ => rfl
    | error e =>
        rw [hresources] at hconfig
        by_cases hscale : s.config.replayTickScale = 0
        · rw [if_pos hscale] at hconfig
          cases hconfig
        · rw [if_neg hscale] at hconfig
          cases hconfig
  unfold Capacity.validate at hvalid
  split at hvalid
  · cases hvalid
  · next hnone =>
      have := List.find?_eq_none.1 hnone r (by cases r <;> decide)
      exact Nat.pos_of_ne_zero fun hzero => this (decide_eq_true hzero)

end Setup

/-! ### Nodes with a record -/

/-- Everything that was asked of the kernel has come back. -/
def Answered {κ : Type} (calls : List Call) (e : Engine κ) : Prop :=
  ∀ event, ¬Outstanding (calls.map Call.event) e.asked event

/-- The number of completions that were handed over. -/
def deliveries (calls : List Call) : Nat :=
  (calls.map Call.event).countP fun event => event ≠ .wake

variable {κ : Type} [Kernel κ] {s : Setup} {calls : List Call} {m : Moment κ}

namespace AtRest

/-- Nodes with a record are not stuck. -/
theorem not_stuck_of_record (h : AtRest s calls m) {id : NodeId} {r : Record}
    (hr : m.workload.statistics.records.find? id = some r) : ¬s.Stuck id := by
  obtain ⟨hunblocked, -⟩ := h.coherent.lifecycle.started id r hr
  exact Setup.not_stuck_of_unblocked h.coherent.lifecycle.order hunblocked

/-- A node for which something was asked of the kernel is neither stuck nor skipped. -/
theorem replayed_of_record (h : AtRest s calls m) {id : NodeId} {r : Record}
    (hr : m.workload.statistics.records.find? id = some r) (htype : r.operatorType ≠ .invalid) :
    s.Replayed id := by
  obtain ⟨⟨n, hn, -⟩, -⟩ := h.coherent.lifecycle.started id r hr
  obtain ⟨hmem, hid⟩ := (s.built.lookup_iff id n).1 hn
  exact ⟨h.not_stuck_of_record hr, n, hmem, hid,
    fun hskips => htype ((h.coherent.operatorType_eq_invalid_iff hr hn).2 hskips)⟩

/-- Something was asked of the kernel for a node with a record that is not skipped. -/
theorem asked_of_replayed (h : AtRest s calls m) {id : NodeId} {r : Record}
    (hr : m.workload.statistics.records.find? id = some r) (hreplayed : s.Replayed id) :
    r.operatorType ≠ .invalid := by
  obtain ⟨-, n, hmem, hid, hskips⟩ := hreplayed
  have hn := (s.built.lookup_iff id n).2 ⟨hmem, hid⟩
  exact fun htype => hskips ((h.coherent.operatorType_eq_invalid_iff hr hn).1 htype)

/-! ### Completions -/

/-- The nodes that ended after something had been asked of the kernel for them. -/
theorem deliveries_eq (h : AtRest s calls m) :
    deliveries calls = {id | ∃ r, m.workload.statistics.records.find? id = some r ∧
      (r.finish.isSome && r.operatorType ≠ .invalid) = true}.ncard := by
  rw [SortedMap.ncard_setOf, deliveries, ← h.delivered]
  exact h.coherent.custody.completed

theorem ended_subset (h : AtRest s calls m) :
    {id | ∃ r, m.workload.statistics.records.find? id = some r ∧
      (r.finish.isSome && r.operatorType ≠ .invalid) = true} ⊆ {id | s.Replayed id} := by
  rintro id ⟨r, hr, hended⟩
  rw [Bool.and_eq_true, decide_eq_true_eq] at hended
  exact h.replayed_of_record hr hended.2

/-- **There are never more completions than nodes that are replayed.** -/
theorem deliveries_le (h : AtRest s calls m) : deliveries calls ≤ {id | s.Replayed id}.ncard := by
  rw [h.deliveries_eq]
  exact Set.ncard_le_ncard h.ended_subset s.finite_replayed

/-- After as many completions as there are nodes to be replayed nothing is outstanding. -/
theorem answered_of_deliveries (h : AtRest s calls m)
    (hall : deliveries calls = {id | s.Replayed id}.ncard) : Answered calls m.toEngine := by
  rw [h.deliveries_eq] at hall
  -- all nodes that are replayed have ended
  have hset := Set.eq_of_subset_of_ncard_le h.ended_subset hall.ge s.finite_replayed
  intro event hout
  rw [← h.delivered] at hout
  -- a node in flight is replayed and has not ended
  obtain ⟨id, hrunning⟩ := h.coherent.custody.running_of_outstanding hout
  obtain ⟨r, hr, hfinish⟩ := Record.running_iff.1 hrunning
  have hreplayed := h.replayed_of_record hr (h.coherent.custody.busy id r hr hfinish)
  obtain ⟨r', hr', hended⟩ := hset.ge hreplayed
  cases hr.symm.trans hr'
  rw [hfinish] at hended
  cases hended

/-! ### At rest -/

section

variable (h : AtRest s calls m) (answered : Answered calls m.toEngine)

include h answered

theorem running_eq_false (id : NodeId) :
    Record.running m.workload.statistics.records id = false := by
  rw [← Bool.not_eq_true]
  intro hrunning
  obtain ⟨event, hout⟩ := h.coherent.custody.outstanding_of_running hrunning
  rw [h.delivered] at hout
  exact answered event hout

variable (quiet : Quiet calls)

include quiet

/-- No slot is taken. -/
theorem taken_eq_zero (r : Resource) : m.workload.pool.taken.get r = 0 := by
  rw [h.coherent.slots.taken r, (h.tidy quiet).2.1, List.countP_nil, Nat.add_zero, runningOn,
    SortedMap.count_eq_zero_iff]
  intro id record hrecord
  have hrunning := h.running_eq_false answered id
  rw [Record.running, hrecord] at hrunning
  exact Bool.and_eq_false_imp.2 fun hnone => by cases hrunning.symm.trans hnone

variable (fired : calls ≠ [])

include fired

/-- No node is left in the queue. -/
theorem ready_eq_nil : m.workload.graph.ready = [] := by
  refine List.eq_nil_iff_forall_not_mem.2 fun id hid => ?_
  obtain ⟨⟨n, hn, -⟩, -⟩ := (h.ready_iff quiet id).1 hid
  have hfull := h.blocked quiet fired id n hid hn
  rw [← Bool.not_eq_true, SlotPool.hasRoom_iff] at hfull
  refine hfull fun r _ => ?_
  rw [h.taken_eq_zero answered quiet r, h.coherent.slots.capacity_eq]
  exact s.capacity_pos r

/-- Nodes that have not ended are stuck, since each of them waits for another one. -/
theorem stuck_of_not_ended {id : NodeId} (hknown : ∃ n, s.graph.lookup id = some n)
    (hended : Record.ended m.workload.statistics.records id = false) : s.Stuck id := by
  refine Setup.stuck_of_parents (S := fun id => (∃ n, s.graph.lookup id = some n) ∧
    Record.ended m.workload.statistics.records id = false) (fun id hid => hid.1) ?_ ⟨hknown, hended⟩
  rintro id ⟨⟨n, hn⟩, hended⟩
  have hnone := Record.eq_none_of (h.running_eq_false answered id) hended
  have hblocked : ¬s.graph.Unblocked m.workload.graph.freed id := fun hunblocked => by
    have hready := (h.ready_iff quiet id).2 ⟨hunblocked, hnone⟩
    rw [h.ready_eq_nil answered quiet fired] at hready
    cases hready
  -- otherwise the node would be in the queue
  obtain ⟨p, hp, hfreed⟩ : ∃ p ∈ n.parents, p ∉ m.workload.graph.freed := by
    by_contra hall
    refine hblocked ⟨n, hn, fun p hp => ?_⟩
    by_contra hfreed
    exact hall ⟨p, hp, hfreed⟩
  have hparent : s.Parent p id := Setup.parent_iff.2 ⟨n, hn, hp⟩
  rw [h.freed_iff quiet p, Bool.not_eq_true] at hfreed
  exact ⟨p, ⟨Setup.lookup_of_parent hparent, hfreed⟩, hparent⟩

/-- The nodes that ended are those that are not stuck. -/
theorem ended_iff {id : NodeId} (hknown : ∃ n, s.graph.lookup id = some n) :
    Record.ended m.workload.statistics.records id = true ↔ ¬s.Stuck id := by
  constructor
  · intro hended
    obtain ⟨r, -, hr, -⟩ := Record.ended_iff.1 hended
    exact h.not_stuck_of_record hr
  · intro hstuck
    by_contra hended
    rw [Bool.not_eq_true] at hended
    exact hstuck (h.stuck_of_not_ended answered quiet fired hknown hended)

/-- The nodes that are left are the stuck ones. -/
theorem left_iff (id : NodeId) :
    (∃ n, m.workload.graph.lookup id = some n) ↔ s.Stuck id := by
  rw [h.lookup_eq quiet id]
  constructor
  · rintro ⟨n, hn⟩
    split at hn
    · cases hn
    · next hended =>
        rw [h.ended_iff answered quiet fired ⟨n, hn⟩] at hended
        exact Classical.not_not.1 hended
  · intro hstuck
    have hknown := Setup.lookup_of_stuck hstuck
    rw [if_neg]
    · exact hknown
    · rw [h.ended_iff answered quiet fired hknown]
      exact Classical.not_not.2 hstuck

/-- The record of a node that is replayed. -/
theorem record_of_replayed {id : NodeId} (hreplayed : s.Replayed id) :
    ∃ r, m.workload.statistics.records.find? id = some r ∧ r.finish.isSome = true ∧
      r.operatorType ≠ .invalid := by
  obtain ⟨n, hmem, hid, -⟩ := hreplayed.2
  have hknown := (s.built.lookup_iff id n).2 ⟨hmem, hid⟩
  obtain ⟨r, finish, hr, hfinish⟩ :=
    Record.ended_iff.1 ((h.ended_iff answered quiet fired ⟨n, hknown⟩).2 hreplayed.1)
  exact ⟨r, hr, by rw [hfinish]; rfl, h.asked_of_replayed hr hreplayed⟩

/-- The run has finished if there are no stuck nodes. -/
theorem finished_iff : m.workload.isFinished = true ↔ s.Acyclic := by
  rw [Setup.acyclic_iff]
  have hleft := h.left_iff answered quiet fired
  -- without stuck nodes the graph is empty, and the other way round
  have hempty : (∀ id, ¬s.Stuck id) ↔ m.workload.graph.isEmpty = true := by
    rw [Graph.isEmpty, SortedMap.isEmpty_iff]
    refine forall_congr' fun id => ?_
    rw [← hleft id, ← Option.isSome_iff_exists, Bool.not_eq_true, Option.isSome_eq_false_iff,
      Option.isNone_iff_eq_none]
    rfl
  rw [hempty]
  constructor
  · intro hfinished
    obtain ⟨-, hdone, -⟩ := h.finished hfinished
    rw [Graph.hasRemainingWork, Bool.or_eq_false_iff, Bool.not_eq_false'] at hdone
    exact hdone.1
  · intro hgraph
    by_contra hunfinished
    rw [Bool.not_eq_true] at hunfinished
    rcases h.busy quiet fired hunfinished with hwork | hbusy
    · rw [Graph.hasRemainingWork, hgraph, h.ready_eq_nil answered quiet fired] at hwork
      cases hwork
    · have hidle := (SlotPool.isIdle_iff _).2 (h.taken_eq_zero answered quiet)
      cases hidle.symm.trans hbusy

end

end AtRest

/-- How a run is left that has come to rest. -/
structure Exhausted (s : Setup) (calls : List Call) (e : Engine κ) : Prop where
  /-- The nodes that are not stuck have ended and are removed. -/
  ended : ∀ n ∈ s.trace, ¬s.Stuck n.id →
    Record.ended e.workload.statistics.records n.id = true ∧ e.workload.graph.lookup n.id = none
  /-- The others are left. -/
  left : ∀ id, (∃ n, e.workload.graph.lookup id = some n) ↔ s.Stuck id
  remaining : e.workload.graph.remaining = {id | s.Stuck id}.ncard
  finished : e.workload.isFinished = true ↔ s.Acyclic
  /-- The kernel was asked once for each node that is replayed, and for no others. -/
  asked : ∀ id, (s.Replayed id → requestsFor e.asked id = 1) ∧
    (¬s.Replayed id → requestsFor e.asked id = 0)
  /-- Whatever it was asked for it has delivered once. -/
  delivered : ∀ event, event ≠ .wake →
    (calls.map Call.event).count event = (owed e.asked).count event
  deliveries : deliveries calls = {id | s.Replayed id}.ncard

/-- **A run that has come to rest has done all that can be done.** -/
theorem AtRest.exhausted (h : AtRest s calls m) (quiet : Quiet calls) (fired : calls ≠ [])
    (answered : Answered calls m.toEngine) : Exhausted s calls m.toEngine where
  ended := by
    intro n hn hstuck
    have hended := (h.ended_iff answered quiet fired
      ⟨n, (s.built.lookup_iff n.id n).2 ⟨hn, rfl⟩⟩).2 hstuck
    exact ⟨hended, (h.lookup_eq quiet n.id).trans (if_pos hended)⟩
  left := h.left_iff answered quiet fired
  remaining := by
    have hcount := SortedMap.ncard_setOf m.workload.graph.nodes fun _ _ => true
    rw [SortedMap.count, List.countP_true] at hcount
    refine Eq.trans hcount.symm (congrArg Set.ncard (Set.ext fun id => ?_))
    refine Iff.trans ?_ (h.left_iff answered quiet fired id)
    exact exists_congr fun n => and_iff_left rfl
  finished := h.finished_iff answered quiet fired
  asked := by
    intro id
    rw [h.coherent.custody.requested id]
    constructor
    · intro hreplayed
      obtain ⟨r, hr, -, htype⟩ := h.record_of_replayed answered quiet fired hreplayed
      rw [Record.asked, hr, if_pos]
      exact decide_eq_true htype
    · intro hreplayed
      rw [if_neg]
      intro hasked
      obtain ⟨r, hr, htype⟩ := Option.any_eq_true _ _ |>.1 hasked
      exact hreplayed (h.replayed_of_record hr (of_decide_eq_true htype))
  delivered := by
    intro event hne
    have hledger := h.coherent.custody.ledger event hne
    have hnone := answered event
    rw [h.delivered] at hledger
    rw [Outstanding] at hnone
    omega
  deliveries := by
    rw [h.deliveries_eq]
    refine congrArg Set.ncard (h.ended_subset.antisymm fun id hreplayed => ?_)
    obtain ⟨r, hr, hfinish, htype⟩ := h.record_of_replayed answered quiet fired hreplayed
    exact ⟨r, hr, by rw [hfinish, decide_eq_true htype]; rfl⟩

end TraceReplay
