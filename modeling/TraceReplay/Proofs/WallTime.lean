/-
**A run has no idle gaps.**

The clock of a whole run only moves to the tick of an event, and the event ends an operation that was in
flight all the while.  So at every tick before the end of a run some node is in flight: the finish tick,
the last end of a node and the length of the union of all intervals are the same number, and the report
gives it as the wall time.

Main results:

* `Setup.Rests.exists_active` — at every tick that has passed some node was in flight;
* `Setup.Rests.wallTime_eq`, `Setup.Rests.busyTime_eq` — the last end and the busy time of all records;
* `Replay.run_gapless` — **the wall time of a run is its busy time**.
-/

import TraceReplay.Proofs.BadNodes
import TraceReplay.Proofs.BusyTime
import TraceReplay.Proofs.Hindsight
import TraceReplay.Proofs.Termination

set_option relaxedAutoImplicit false
set_option autoImplicit false

namespace TraceReplay

open TraceReplay.Action

namespace Setup.Rests

variable {s : Setup} {c : AnalyticalConfig} {m : Moment Analytical}

/-- **At every tick that has passed some node was in flight**: the one whose event came next. -/
theorem exists_active (h : s.Rests c m) {t : Tick} (ht : t < m.kernel.now) :
    ∃ id r, m.workload.statistics.records.find? id = some r ∧ r.activeAt t = true := by
  obtain ⟨m₀, rests, -, next, hseen⟩ := h.seen ht
  obtain ⟨calls, -, -, hrest, prepared⟩ := rests.atRest
  obtain ⟨⟨event, k⟩, hnext⟩ := Option.isSome_iff_exists.1 next
  obtain ⟨hout, -⟩ := prepared.next hnext
  obtain ⟨id, hrunning⟩ := hrest.coherent.custody.running_of_outstanding hout
  obtain ⟨r₀, hr₀, -⟩ := Record.running_iff.1 hrunning
  -- that node had started and had not ended
  obtain ⟨hstarted, hended⟩ := hseen id
  rw [hr₀, Option.isSome_some] at hstarted
  rw [Record.ended_of_running hrunning] at hended
  obtain ⟨r, hr, -⟩ := Record.startedBy_iff.1 hstarted
  exact ⟨id, r, hr, by rw [Record.activeAt_eq hr, hstarted, hended]; rfl⟩

variable (h : s.Rests c m) (hfinished : m.workload.isFinished = true)

include h

/-- Only nodes of the trace have records. -/
theorem mem_trace_of_record {id : NodeId} {r : Record}
    (hr : m.workload.statistics.records.find? id = some r) : ∃ n ∈ s.trace, n.id = id := by
  obtain ⟨⟨n, hn, -⟩, -⟩ := h.coherent.1.lifecycle.started id r hr
  exact ⟨n, (s.built.lookup_iff id n).1 hn⟩

include hfinished

/-- Once the run has ended all nodes have. -/
theorem ended_of_mem {n : Node} (hn : n ∈ s.trace) : ∃ r finish,
    m.workload.statistics.records.find? n.id = some r ∧ r.finish = some finish ∧
      r.start ≤ finish ∧ finish ≤ m.kernel.now := by
  obtain ⟨calls, -, -, hrest, -⟩ := h.atRest
  have done : m.workload.adapter.hasRemainingWork m.workload.graph = false := by
    rw [hrest.coherent.adapter]
    exact (hrest.finished hfinished).2.1
  obtain ⟨r, finish, hr, hfinish⟩ :=
    Record.ended_iff.1 (hrest.coherent.ended_of_not_hasRemainingWork done hn)
  exact ⟨r, finish, hr, hfinish, h.punctual.interval _ r finish hr hfinish⟩

/-- Once the run has ended all records have an end. -/
theorem ended_of_record {id : NodeId} {r : Record}
    (hr : m.workload.statistics.records.find? id = some r) :
    ∃ finish, r.finish = some finish ∧ r.start ≤ finish ∧ finish ≤ m.kernel.now := by
  obtain ⟨n, hn, rfl⟩ := h.mem_trace_of_record hr
  obtain ⟨r', finish, hr', hfinish⟩ := h.ended_of_mem hfinished hn
  cases hr.symm.trans hr'
  exact ⟨finish, hfinish⟩

/-- At every tick before the end some interval is open. -/
theorem exists_interval {t : Tick} (ht : t < m.kernel.now) : ∃ id r finish,
    m.workload.statistics.records.find? id = some r ∧ r.finish = some finish ∧
      r.start ≤ t ∧ t < finish := by
  obtain ⟨id, r, hr, hactive⟩ := h.exists_active ht
  obtain ⟨finish, hfinish, -⟩ := h.ended_of_record hfinished hr
  have hactive' : r.start ≤ t ∧ t < finish := by simpa [Record.activeAt, hfinish] using hactive
  exact ⟨id, r, finish, hr, hfinish, hactive'⟩

/-- Some node ends with the run, if there is one. -/
theorem exists_last (hne : s.trace ≠ []) : ∃ n ∈ s.trace, ∃ r,
    m.workload.statistics.records.find? n.id = some r ∧ r.finish = some m.kernel.now := by
  rcases Nat.eq_zero_or_pos m.kernel.now with hzero | hpos
  · obtain ⟨n, hn⟩ := List.exists_mem_of_ne_nil _ hne
    obtain ⟨r, finish, hr, hfinish, -, hle⟩ := h.ended_of_mem hfinished hn
    rw [hzero, Nat.le_zero] at hle
    exact ⟨n, hn, r, hr, by rw [hfinish, hle, hzero]⟩
  · -- the node that was in flight at the tick before
    obtain ⟨id, r, finish, hr, hfinish, -, hlt⟩ :=
      h.exists_interval hfinished (Nat.sub_lt hpos Nat.one_pos)
    obtain ⟨n, hn, rfl⟩ := h.mem_trace_of_record hr
    obtain ⟨finish', hfinish', -, hle⟩ := h.ended_of_record hfinished hr
    cases hfinish.symm.trans hfinish'
    have heq : finish = m.kernel.now := Nat.le_antisymm hle (Nat.le_of_pred_lt hlt)
    exact ⟨n, hn, r, hr, by rw [hfinish, heq]⟩

/-- The last end of a node is the present tick. -/
theorem wallTime_eq : m.workload.statistics.wallTime = m.kernel.now := by
  have hends {finish : Tick} (hmem : finish ∈
      m.workload.statistics.records.values.filterMap Record.finish) : finish ≤ m.kernel.now := by
    obtain ⟨r, hr, hfinish⟩ := List.mem_filterMap.1 hmem
    obtain ⟨id, hr⟩ := (SortedMap.mem_values_iff _ _).1 hr
    obtain ⟨finish', hfinish', -, hle⟩ := h.ended_of_record hfinished hr
    cases hfinish.symm.trans hfinish'
    exact hle
  refine Nat.le_antisymm (Counter.foldl_max_le_iff.2 ⟨Nat.zero_le _, fun _ => hends⟩) ?_
  rcases eq_or_ne s.trace [] with hnil | hne
  · -- without nodes no tick has passed
    refine Nat.le_of_not_lt fun hlt => ?_
    obtain ⟨id, r, hr, -⟩ := h.exists_active hlt
    obtain ⟨n, hn, -⟩ := h.mem_trace_of_record hr
    rw [hnil] at hn
    cases hn
  · obtain ⟨n, -, r, hr, hfinish⟩ := h.exists_last hfinished hne
    exact Counter.le_foldl_max 0
      (List.mem_filterMap.2 ⟨r, (SortedMap.mem_values_iff _ _).2 ⟨n.id, hr⟩, hfinish⟩)

/-- The ticks that the records cover are those that have passed. -/
theorem covered_eq :
    Interval.covered (m.workload.statistics.records.values.filterMap Record.interval?) =
      Set.Ico 0 m.kernel.now := by
  ext t
  constructor
  · rintro ⟨i, hi, -, hlt⟩
    obtain ⟨r, hr, hinterval⟩ := List.mem_filterMap.1 hi
    obtain ⟨id, hr⟩ := (SortedMap.mem_values_iff _ _).1 hr
    obtain ⟨finish, hfinish, -, hle⟩ := h.ended_of_record hfinished hr
    obtain ⟨finish', hfinish', rfl⟩ := Option.map_eq_some_iff.1 hinterval
    cases hfinish.symm.trans hfinish'
    exact ⟨Nat.zero_le _, Nat.lt_of_lt_of_le hlt hle⟩
  · rintro ⟨-, ht⟩
    obtain ⟨id, r, finish, hr, hfinish, hactive⟩ := h.exists_interval hfinished ht
    refine ⟨(r.start, finish), List.mem_filterMap.2
      ⟨r, (SortedMap.mem_values_iff _ _).2 ⟨id, hr⟩, ?_⟩, hactive⟩
    rw [Record.interval?, hfinish]
    rfl

/-- The busy time of all records is the time that has passed. -/
theorem busyTime_eq :
    busyTime (m.workload.statistics.records.values.filterMap Record.interval?) =
      .ok m.kernel.now := by
  obtain ⟨calls, -, -, -, prepared⟩ := h.atRest
  have hforward : Forward (m.workload.statistics.records.values.filterMap Record.interval?) := by
    intro i hi
    obtain ⟨r, hr, hinterval⟩ := List.mem_filterMap.1 hi
    obtain ⟨id, hr⟩ := (SortedMap.mem_values_iff _ _).1 hr
    obtain ⟨finish, hfinish, rfl⟩ := Option.map_eq_some_iff.1 hinterval
    exact (h.punctual.interval id r finish hr hfinish).1
  have hcount : (Interval.covered
      (m.workload.statistics.records.values.filterMap Record.interval?)).ncard = m.kernel.now := by
    rw [h.covered_eq hfinished, Interval.ncard_Ico, Nat.sub_zero]
  rw [TraceReplay.busyTime_eq hforward (by rw [hcount]; exact prepared.now_lt), hcount]

end Setup.Rests

/-- **The wall time of a run is its busy time.**  The tick that a whole run returns is its finish tick,
the wall time of its report, the last end of a node, and the length of the union of the intervals of all
nodes: at every tick before it some node is in flight. -/
theorem Replay.run_gapless {s : Setup} {c : AnalyticalConfig} {j : Array Entry} {tick : Tick}
    {t : Logged (Engine Analytical)} (hrun : run ⟨s.engine { config := c }, j⟩ = .ok tick t) :
    t.state.workload.finishTick = some tick ∧
    (∃ report, t.state.workload.report = some report ∧ report.wallTime = tick) ∧
    t.state.workload.statistics.wallTime = tick ∧
    (∀ n ∈ s.trace, ∃ r finish, t.state.workload.statistics.records.find? n.id = some r ∧
      r.finish = some finish ∧ r.start ≤ finish ∧ finish ≤ tick) ∧
    (s.trace ≠ [] → ∃ n ∈ s.trace, ∃ r,
      t.state.workload.statistics.records.find? n.id = some r ∧ r.finish = some tick) ∧
    busyTime (t.state.workload.statistics.records.values.filterMap Record.interval?) = .ok tick ∧
    ∀ t', t' < tick → ∃ n ∈ s.trace, ∃ r finish,
      t.state.workload.statistics.records.find? n.id = some r ∧ r.finish = some finish ∧
        r.start ≤ t' ∧ t' < finish := by
  obtain ⟨hfinish, ⟨report, hreport, sums⟩, m, rests, ht, hnow⟩ := ends_run_rests.of_ok hrun
  rw [← ht] at hfinish hreport sums ⊢
  have hfinished : m.workload.isFinished = true := by rw [Workload.isFinished, hfinish]; rfl
  rw [← hnow]
  refine ⟨by rw [hfinish, hnow], ⟨report, hreport, ?_⟩, rests.wallTime_eq hfinished,
    fun n hn => rests.ended_of_mem hfinished hn, rests.exists_last hfinished, rests.busyTime_eq hfinished, fun t' ht' => ?_⟩
  · rw [sums.wallTime, rests.wallTime_eq hfinished]
  · obtain ⟨id, r, finish, hr, hinterval⟩ := rests.exists_interval hfinished ht'
    obtain ⟨n, hn, rfl⟩ := rests.mem_trace_of_record hr
    exact ⟨n, hn, r, finish, hr, hinterval⟩

/-- The computations of a crowd follow each other without a gap, though the node between them takes no
time. -/
theorem Replay.run_gapless_crowd : ∃ t,
    run ⟨(Setup.crowd .standard rfl).engine { config := {} }, #[]⟩ = .ok 6000 t ∧
      busyTime (t.state.workload.statistics.records.values.filterMap Record.interval?) = .ok 6000 ∧
      ∃ n ∈ (Setup.crowd .standard rfl).trace, ∃ r finish,
        t.state.workload.statistics.records.find? n.id = some r ∧ r.finish = some finish ∧
          r.start ≤ 3000 ∧ 3000 < finish := by
  have hruns : Ends run ⟨(Setup.crowd .standard rfl).engine { config := {} }, #[]⟩
      (fun tick _ => tick = 6000) fun _ _ => False := by decide +kernel
  obtain ⟨_, t, hrun, rfl⟩ := hruns.exists_ok
  obtain ⟨-, -, -, -, -, hbusy, hcovers⟩ := Replay.run_gapless hrun
  exact ⟨t, hrun, hbusy, hcovers 3000 (by decide)⟩

end TraceReplay
