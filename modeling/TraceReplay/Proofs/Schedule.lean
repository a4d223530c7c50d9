/-
**The records of a run are a schedule.**

If the clock of the kernel never goes back, the records that a run has written so far respect the
dependencies and the resources of the trace: a node starts after all its ancestors have ended, and at no
tick more nodes of a resource are active than it has slots.

Main results:

* `Run.ancestors_ended` — **nodes start after their ancestors have ended**, also in runs in which calls
  have returned errors;
* `Run.slots_respected` — **slots taken are nodes in flight, and there are never more than slots**.
-/

import TraceReplay.Kernel.Scripted
import TraceReplay.Proofs.Dependencies
import TraceReplay.Proofs.Engine.Run

set_option relaxedAutoImplicit false
set_option autoImplicit false

namespace TraceReplay

open Relation

/-- The scripted clock stands still while requests are taken. -/
theorem Scripted.steady : Kernel.Steady Scripted where
  takes := by
    rintro k k' token operation ⟨journal, t, ht, rfl⟩
    cases ht
    exact Nat.le_refl _
  gives := by
    rintro k k' gathering handle ⟨journal, t, ht, rfl⟩
    cases ht
    obtain ⟨now, handles, numbered⟩ := k
    cases handles <;> exact Nat.le_refl _

variable {κ : Type} [Kernel κ] {s : Setup} {calls : List Call}

/-! ### Dependencies -/

/-- The ancestors of a node with a record ended before it started. -/
theorem Timing.ancestor_finish {capacity : Capacity} {records : SortedMap NodeId Record} {now : Tick}
    (h : Timing s.graph capacity records now) {p id : NodeId} (hp : TransGen s.Parent p id) :
    ∀ {r : Record}, records.find? id = some r →
      ∃ rp finish, records.find? p = some rp ∧ rp.finish = some finish ∧ finish ≤ r.start := by
  -- along the chain of dependencies each node starts after the one before has ended
  induction hp with
  | single hparent =>
      intro r hr
      obtain ⟨n, hn, hmem⟩ := Setup.parent_iff.1 hparent
      exact h.ordered _ r n hr hn p hmem
  | tail _ hparent ih =>
      intro r hr
      obtain ⟨n, hn, hmem⟩ := Setup.parent_iff.1 hparent
      obtain ⟨rq, finish, hq, hfinish, hle⟩ := h.ordered _ r n hr hn _ hmem
      obtain ⟨rp, finish', hp, hfinish', hle'⟩ := ih hq
      have hbegun := (h.interval _ rq finish hq hfinish).1
      exact ⟨rp, finish', hp, hfinish', Nat.le_trans hle' (Nat.le_trans hbegun hle)⟩

/-- **Nodes start after their ancestors have ended**, and end after their start. -/
theorem Run.ancestors_ended (steady : Kernel.Steady κ) {e : Engine κ} (run : Run s calls e)
    {id : NodeId} {r : Record} (hr : e.workload.statistics.records.find? id = some r) :
    (∀ finish, r.finish = some finish → r.start ≤ finish) ∧
      ∀ p, TransGen s.Parent p id → ∃ rp finish, e.workload.statistics.records.find? p = some rp ∧
        rp.finish = some finish ∧ finish ≤ r.start := by
  obtain ⟨m, rfl, h⟩ := run.atRest
  have htiming := h.punctual steady
  exact ⟨fun finish hfinish => (htiming.interval id r finish hr hfinish).1,
    fun p hp => htiming.ancestor_finish hp hr⟩

/-- The transfer of a pair starts after the computation has ended. -/
theorem Run.ancestors_ended_pair : ∃ (e : Engine Scripted) (r : Record),
    Setup.pair.drive {} [(.nodeFinished ⟨0⟩, { now := 5 }), (.wake, {})] = some e ∧
      e.workload.statistics.records.find? 2 = some r ∧ TransGen Setup.pair.Parent 1 2 ∧
      ∃ rp finish, e.workload.statistics.records.find? 1 = some rp ∧ rp.finish = some finish ∧
        finish ≤ r.start := by
  have hdrive : ((Setup.pair.drive ({} : Scripted) [(.nodeFinished ⟨0⟩, { now := 5 }), (.wake, {})]).bind
      fun e => (e.workload.statistics.records.find? 2).map fun r => (e, r)).isSome = true := by
    decide +kernel
  obtain ⟨⟨e, r⟩, he⟩ := Option.isSome_iff_exists.1 hdrive
  obtain ⟨e, he, hr⟩ := Option.bind_eq_some_iff.1 he
  obtain ⟨r, hr, ⟨⟩⟩ := Option.map_eq_some_iff.1 hr
  have hparent : TransGen Setup.pair.Parent 1 2 := by
    refine .single ⟨_, List.mem_cons_of_mem _ List.mem_cons_self, rfl, .inl List.mem_cons_self⟩
  exact ⟨e, r, he, hr, hparent, (Run.ancestors_ended Scripted.steady (.of_drive he) hr).2 1 hparent⟩

/-! ### Resources -/

/-- **Slots taken are nodes in flight, and there are never more than slots**, nor are more nodes active
at any tick. -/
theorem Run.slots_respected (steady : Kernel.Steady κ) {e : Engine κ} (run : Run s calls e)
    (quiet : Quiet calls) (r : Resource) :
    e.workload.pool.taken.get r = heldOn s.graph e.workload.inFlight e.workload.gatherings r ∧
      e.workload.pool.taken.get r ≤ e.workload.pool.capacity.get r ∧
      e.workload.pool.capacity.get r = s.config.resources.get r ∧
      ∀ t, activeOn s.graph e.workload.statistics.records r t ≤ e.workload.pool.capacity.get r := by
  obtain ⟨m, rfl, h⟩ := run.atRest
  have hslots := h.coherent.slots
  obtain ⟨-, hunfreed, -⟩ := h.tidy quiet
  have htaken := hslots.taken r
  rw [hunfreed, List.countP_nil, Nat.add_zero, ← hslots.held r] at htaken
  rw [hslots.capacity_eq]
  exact ⟨htaken, hslots.bound r, rfl, (h.punctual steady).active r⟩

/-- While the computation of a pair is in flight it takes the only slot for computations. -/
theorem Run.slots_respected_pair : ∃ e : Engine Scripted,
    Setup.pair.drive {} [(.wake, {})] = some e ∧
      e.workload.pool.taken.get .cpuCompute = 1 ∧
      e.workload.pool.taken.get .cpuCompute ≤ e.workload.pool.capacity.get .cpuCompute := by
  have hdrive : ((Setup.pair.drive ({} : Scripted) [(.wake, {})]).map fun e =>
      e.workload.pool.taken.get .cpuCompute) = some 1 := by decide +kernel
  obtain ⟨e, he, htaken⟩ := Option.map_eq_some_iff.1 hdrive
  exact ⟨e, he, htaken, (Run.slots_respected Scripted.steady (.of_drive he) (by simp [Quiet]) _).2.1⟩

end TraceReplay
