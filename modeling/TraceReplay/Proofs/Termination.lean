/-
**When a run has ended.**

The engine looks at the end of every call whether work is left and slots are taken, and otherwise ends
the run and makes its report.  Neither question would do alone: a receive holds no slot, and a node that
waits for a slot is in no structure but the graph.  A call that returns an error leaves a node in the
graph that no later event can bring back: the run never ends, and never reports.

Main definitions:

* `Engine.Done` — nothing is left to do.

Main results:

* `Run.isFinished_iff` — a run has ended exactly if no call has returned an error and nothing is left to
  do, and exactly then there is a report.
-/

import TraceReplay.Kernel.Scripted
import TraceReplay.Proofs.Engine.Returns

set_option relaxedAutoImplicit false
set_option autoImplicit false

namespace TraceReplay

variable {κ : Type} {s : Setup}

/-- Nothing is left to do: all nodes have ended and left the graph, nothing has been asked of the kernel
that it has not answered, and all slots are free. -/
structure Engine.Done (s : Setup) (e : Engine κ) : Prop where
  ended : ∀ n ∈ s.trace, Record.ended e.workload.statistics.records n.id = true
  answered : e.workload.pendingCount = 0
  empty : e.workload.graph.isEmpty = true
  free : ∀ r, e.workload.pool.taken.get r = 0

variable {m : Moment κ}

/-- When no work is left nothing is pending. -/
theorem Coherent.pendingCount_eq_zero (hc : Coherent s m)
    (done : m.workload.adapter.hasRemainingWork m.workload.graph = false) :
    m.workload.pendingCount = 0 := by
  have hcontexts (token : Nat) : m.workload.inFlight.contexts.find? token = none :=
    Option.eq_none_iff_forall_ne_some.2 fun context out =>
      hc.not_running done _ (hc.custody.running_of_context out)
  have hhandles (handle : Nat) : m.workload.gatherings.handles.find? handle = none :=
    Option.eq_none_iff_forall_ne_some.2 fun id out =>
      hc.not_running done id (hc.custody.running_of_handle out)
  have houtstanding (id : NodeId) : m.workload.gatherings.outstanding.find? id = none := by
    rw [hc.custody.outstanding id, if_pos]
    refine SortedMap.count_eq_zero_iff.2 fun handle node out => ?_
    rw [hhandles handle] at out
    cases out
  rw [Workload.pendingCount, InFlight.size, Gatherings.pendingNodes,
    SortedMap.size_eq_zero hcontexts, SortedMap.size_eq_zero houtstanding]

/-- When no work is left all nodes have ended. -/
theorem Coherent.ended_of_not_hasRemainingWork (hc : Coherent s m)
    (done : m.workload.adapter.hasRemainingWork m.workload.graph = false) {n : Node}
    (hn : n ∈ s.trace) : Record.ended m.workload.statistics.records n.id = true := by
  have hpresent := hc.lifecycle.present n.id
  rw [hc.lookup_eq_none done n.id, (s.built.lookup_iff n.id n).2 ⟨hn, rfl⟩] at hpresent
  split at hpresent
  next hgone => exact ((hc.lifecycle.freed n.id).1 hgone.1).1
  next => cases hpresent

/-- When work is left, or a slot is taken, something is left to do. -/
theorem Coherent.not_done (hc : Coherent s m)
    (busy : m.workload.graph.hasRemainingWork = true ∨ m.workload.pool.isIdle = false) :
    ¬m.toEngine.Done s := by
  intro hdone
  rcases busy with hwork | hslot
  · rw [Graph.hasRemainingWork, hdone.empty, Bool.not_true, Bool.false_or, Bool.not_eq_true',
      List.isEmpty_eq_false_iff] at hwork
    -- a node in the queue would still be in the graph
    obtain ⟨id, rest, hready⟩ := List.exists_cons_of_ne_nil hwork
    exact hc.lookup_front hready (SortedMap.isEmpty_iff.1 hdone.empty id)
  · rw [(SlotPool.isIdle_iff _).2 hdone.free] at hslot
    cases hslot

variable [Kernel κ] {calls : List Call}

/-- **A run has ended exactly if no call has returned an error and nothing is left to do**, after the
first call or later.  Exactly then there is a report.  Making it never fails for a node that has not
ended. -/
theorem Run.isFinished_iff {e : Engine κ} (run : Run s calls e) :
    (e.workload.isFinished = true ↔ Quiet calls ∧ calls ≠ [] ∧ e.Done s) ∧
      e.workload.report.isSome = e.workload.isFinished ∧
      ∀ c ∈ calls, ∀ id start, c.error ≠ some (.unfinishedOperator id start) := by
  have hcomplains := run.complains
  obtain ⟨m, rfl, h⟩ := run.atRest
  refine ⟨⟨fun hfinished => ?_, fun ⟨quiet, fired, hdone⟩ => ?_⟩, h.reported, ?_⟩
  · obtain ⟨fired, hwork, hidle⟩ := h.finished hfinished
    have done : m.workload.adapter.hasRemainingWork m.workload.graph = false := by
      rw [h.coherent.adapter]
      exact hwork
    have quiet : Quiet calls :=
      Classical.byContradiction fun hloud => h.coherent.not_loose done (h.loose hloud)
    exact ⟨quiet, fired, {
      ended := fun n hn => h.coherent.ended_of_not_hasRemainingWork done hn
      answered := h.coherent.pendingCount_eq_zero done
      empty := SortedMap.isEmpty_iff.2 (h.coherent.lookup_eq_none done)
      free := (SlotPool.isIdle_iff _).1 hidle }⟩
  · exact Classical.byContradiction fun hunfinished =>
      h.coherent.not_done (h.busy quiet fired (Bool.eq_false_iff.2 hunfinished)) hdone
  · intro c hc id start herror
    rcases (hcomplains c hc _ herror).isLocal_or_isTraffic with hlocal | htraffic
    · cases hlocal
    · cases htraffic

/-- The run of a pair ends with its second completion. -/
theorem Run.isFinished_iff_pair : ∃ e : Engine Scripted,
    Setup.pair.drive {} [(.packetSent ⟨1⟩, { now := 7 }), (.nodeFinished ⟨0⟩, { now := 5 }),
        (.wake, {})] = some e ∧
      e.workload.report.isSome = true ∧ e.Done .pair := by
  have hdrive : ((Setup.pair.drive ({} : Scripted) [(.packetSent ⟨1⟩, { now := 7 }),
      (.nodeFinished ⟨0⟩, { now := 5 }), (.wake, {})]).map fun e => e.workload.isFinished) =
        some true := by decide +kernel
  obtain ⟨e, he, hfinished⟩ := Option.map_eq_some_iff.1 hdrive
  obtain ⟨hiff, hreport, -⟩ := Run.isFinished_iff (.of_drive he)
  exact ⟨e, he, hreport.trans hfinished, (hiff.1 hfinished).2.2⟩

end TraceReplay
