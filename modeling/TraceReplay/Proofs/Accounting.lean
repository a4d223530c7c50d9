/-
**When a run can be summed up.**

The report is made after the run has been marked as ended.  Two of its sums can leave the range of
counters: the time of all computations, which is counted from one tick on and to which computations that
overlap all contribute, and the bytes of the tensors in memory.  Nothing else can go wrong.  Busy times
count ticks that have passed, no interval ends before it starts, and the means are calculated in
binary64.  So the call that ends a run returns with a report exactly if those two sums fit; otherwise
the report of the whole run is lost.

Main definitions:

* `Record.computeTime` — what a record contributes to the time of all computations;
* `Statistics.Fits` — the sums of a report are counters.

Main results:

* `Utilizations.ofRecords_time` — the totals are counters exactly if that time is one;
* `Statistics.ends_summarize_fits` — statistics of completed nodes are summed up exactly if the sums fit;
* `Run.reports_iff_fits` — **the call that ends a run returns with a report exactly if the sums fit**.
-/

import TraceReplay.Proofs.BusyTime
import TraceReplay.Proofs.Engine.Course
import TraceReplay.Proofs.Memory.Liveness
import TraceReplay.Proofs.Schedule
import TraceReplay.Proofs.Termination

set_option relaxedAutoImplicit false
set_option autoImplicit false

namespace TraceReplay

open TraceReplay.Action

/-! ### The time of all computations -/

/-- What a record contributes to the time of all computations. -/
def Record.computeTime (r : Record) : Nat :=
  if r.operatorType.isCompute then r.finish.elim 0 fun finish => finish - r.start else 0

namespace Utilizations

variable {t : Totals} {r : Record} {rs : List Record}

/-- A record is added to the totals if the time of all computations stays a counter, and otherwise a sum
is too large.  The time of those bound by the processor is part of it and leaves the range no earlier. -/
theorem add_time (hr : ∀ finish, r.finish = some finish → r.start ≤ finish)
    (hpart : t.computeBoundTime ≤ t.time) (htime : t.time < Counter.limit) :
    (t.time + r.computeTime < Counter.limit → ∃ t', t.add r = .ok t' ∧
        t'.time = t.time + r.computeTime ∧ t'.computeBoundTime ≤ t'.time) ∧
      (Counter.limit ≤ t.time + r.computeTime → t.add r = .error .sumTooLarge) := by
  unfold Totals.add Record.computeTime
  cases hcompute : r.operatorType.isCompute with
  | false => exact ⟨fun _ => ⟨t, rfl, rfl, hpart⟩, fun hle => absurd htime (Nat.not_lt.2 hle)⟩
  | true =>
      cases hfinish : r.finish with
      | none =>
          simp only [Record.duration, hfinish]
          exact ⟨fun _ => ⟨t, rfl, rfl, hpart⟩, fun hle => absurd htime (Nat.not_lt.2 hle)⟩
      | some finish =>
          have hduration : r.duration = .ok (some (finish - r.start)) := by
            rw [Record.duration, hfinish]
            dsimp only
            rw [Counter.sub_of_le (hr finish hfinish)]
            rfl
          simp only [hduration, Bool.not_true, Bool.false_eq_true, ↓reduceIte, Option.elim_some, bind,
            Except.bind, pure, Except.pure]
          refine ⟨fun hlt => ?_, fun hle => ?_⟩
          · have hpart' : t.computeBoundTime + (finish - r.start) < Counter.limit :=
              Nat.lt_of_le_of_lt (Nat.add_le_add_right hpart _) hlt
            rw [Counter.add_of_lt hlt, Counter.add_of_lt hpart']
            split
            · exact ⟨_, rfl, rfl, Nat.add_le_add_right hpart _⟩
            · exact ⟨_, rfl, rfl, Nat.le_trans hpart (Nat.le_add_right _ _)⟩
          · rw [Counter.add_of_le hle]
            split
            · -- whichever sum is calculated first
              rcases Nat.lt_or_ge (t.computeBoundTime + (finish - r.start)) Counter.limit with h | h
              · rw [Counter.add_of_lt h]
              · rw [Counter.add_of_le h]
            · rfl

/-- So are some records. -/
theorem foldlM_add_time : ∀ {t : Totals}, Record.Forward rs → t.computeBoundTime ≤ t.time →
    t.time < Counter.limit →
      (t.time + (rs.map Record.computeTime).sum < Counter.limit → ∃ t', rs.foldlM Totals.add t = .ok t') ∧
        (Counter.limit ≤ t.time + (rs.map Record.computeTime).sum →
          rs.foldlM Totals.add t = .error .sumTooLarge) := by
  induction rs with
  | nil => exact fun {t} _ _ htime => ⟨fun _ => ⟨t, rfl⟩, fun hle => absurd htime (Nat.not_lt.2 hle)⟩
  | cons r rs ih =>
      intro t hforward hpart htime
      obtain ⟨hr, hrs⟩ := List.forall_mem_cons.1 hforward
      obtain ⟨hok, hbad⟩ := add_time hr hpart htime
      rw [List.map_cons, List.sum_cons, ← Nat.add_assoc, List.foldlM_cons]
      rcases Nat.lt_or_ge (t.time + r.computeTime) Counter.limit with hlt | hle
      · obtain ⟨t', ht', htime', hpart'⟩ := hok hlt
        rw [ht', ← htime']
        exact ih hrs hpart' (htime' ▸ hlt)
      · rw [hbad hle]
        exact ⟨fun hlt => absurd hle (Nat.not_le.2 (Nat.lt_of_le_of_lt (Nat.le_add_right _ _) hlt)),
          fun _ => rfl⟩

/-- **The means are calculated exactly if the time of all computations is a counter.** -/
theorem ofRecords_time (h : Record.Forward rs) :
    (1 + (rs.map Record.computeTime).sum < Counter.limit → ∃ means, ofRecords rs = .ok means) ∧
      (Counter.limit ≤ 1 + (rs.map Record.computeTime).sum → ofRecords rs = .error .sumTooLarge) := by
  obtain ⟨hok, hbad⟩ := foldlM_add_time (t := {}) h (by decide) (by decide)
  refine ⟨fun hlt => ?_, fun hle => ?_⟩
  · obtain ⟨totals, htotals⟩ := hok hlt
    rw [ofRecords, htotals]
    exact ⟨_, rfl⟩
  · rw [ofRecords, hbad hle]
    rfl

end Utilizations

/-- A report is only made if its sums fit. -/
theorem Report.SumsUp.time_lt {report : Report} {s : Statistics} (sums : report.SumsUp s)
    (forward : Record.Forward s.records.values) :
    1 + (s.records.values.map Record.computeTime).sum < Counter.limit := by
  refine Nat.lt_of_not_le fun large => ?_
  have hmeans := (Utilizations.ofRecords_time forward).2 large
  cases hmeans.symm.trans sums.utilizations

/-! ### Summing up -/

/-- The sums of a report are counters: the time of all computations, counted from one, and the bytes in
memory at any tick, if memory is tracked. -/
structure Statistics.Fits (s : Statistics) : Prop where
  time : 1 + (s.records.values.map Record.computeTime).sum < Counter.limit
  memory : ∀ tracker, s.memory = some tracker → tracker.Fits

namespace Statistics

variable {s : Statistics} {now : Tick}

/-- A timeline and a report change nothing about that. -/
theorem fits_reported (timeline : Timeline) (report : Report) :
    (s.reported timeline report).Fits ↔ s.Fits := by
  constructor
  · rintro ⟨time, memory⟩
    exact ⟨time, fun tracker htracker => memory { tracker with timeline } (by rw [reported, htracker]; rfl)⟩
  · rintro ⟨time, memory⟩
    refine ⟨time, fun tracker htracker => ?_⟩
    obtain ⟨before, hbefore, rfl⟩ := Option.map_eq_some_iff.1 htracker
    exact memory before hbefore

/-- **Completed nodes are summed up exactly if the sums fit**, if what is recorded is in the past and the
clock is a counter. -/
theorem ends_summarize_fits (ended : s.unfinished? = none)
    (hinterval : ∀ id r finish, s.records.find? id = some r → r.finish = some finish →
      r.start ≤ finish ∧ finish ≤ now)
    (htraffic : s.InTime now) (hnow : now < Counter.limit) (j : Array Entry) :
    Ends summarize ⟨s, j⟩ (fun _ _ => s.Fits) fun stop _ => ¬s.Fits ∧ stop = .fault .sumTooLarge := by
  have hpast : ∀ r ∈ s.records.values, ∀ finish, r.finish = some finish →
      r.start ≤ finish ∧ finish ≤ now := by
    intro r hr
    obtain ⟨id, hr⟩ := (SortedMap.mem_values_iff _ _).1 hr
    exact fun finish => hinterval id r finish hr
  have hforward : Record.Forward s.records.values := fun r hr finish hfinish =>
    (hpast r hr finish hfinish).1
  -- busy times are counters, because the clock is
  obtain ⟨times, htimes⟩ : ∃ times, s.typeTimes = .ok times :=
    ⟨_, typeTimes_eq hforward (fun r hr finish hfinish => (hpast r hr finish hfinish).2) hnow⟩
  obtain ⟨hok, hbad⟩ := Utilizations.ofRecords_time hforward
  simp only [summarize, ends_bind, ends_get, ends_note, ended, htimes, ends_lift_orFault_ok]
  rcases Nat.lt_or_ge (1 + (s.records.values.map Record.computeTime).sum) Counter.limit with hlt | hle
  · obtain ⟨means, hmeans⟩ := hok hlt
    rw [utilizations, hmeans]
    simp only [ends_lift_orFault_ok]
    cases hmemory : s.memory with
    | none => exact ⟨hlt, fun tracker htracker => by cases hmemory.symm.trans htracker⟩
    | some tracker =>
        have htracker := (htraffic tracker hmemory).forward
        rw [Option.mapM_some]
        by_cases hfits : tracker.Fits
        · obtain ⟨timeline, memory, hbuilt⟩ := buildTimeline_of_fits htracker hfits
          rw [hbuilt]
          refine ⟨hlt, fun tracker' htracker' => ?_⟩
          cases hmemory.symm.trans htracker'
          exact hfits
        · rw [buildTimeline_of_not_fits htracker hfits]
          exact ⟨fun fits => hfits (fits.memory tracker hmemory), rfl⟩
  · rw [utilizations, hbad hle]
    exact ⟨fun fits => absurd fits.time (Nat.not_lt.2 hle), rfl⟩

/-- What is left then: a report that sums up the statistics, or the statistics as they were. -/
theorem ends_summarize_accounts (ended : s.unfinished? = none)
    (hinterval : ∀ id r finish, s.records.find? id = some r → r.finish = some finish →
      r.start ≤ finish ∧ finish ≤ now)
    (htraffic : s.InTime now) (j : Array Entry) :
    Ends summarize ⟨s, j⟩
      (fun _ t => (now < Counter.limit → t.state.Fits) ∧ t.state.records = s.records ∧
        ∃ report, t.state.report = some report ∧ report.SumsUp t.state)
      fun stop t => t.state = s ∧ (now < Counter.limit → ¬s.Fits ∧ stop = .fault .sumTooLarge) := by
  have hfits (hnow : now < Counter.limit) := ends_summarize_fits ended hinterval htraffic hnow j
  refine ends_iff.2 ⟨fun _ t hr => ?_, fun stop t hr => ?_⟩
  · obtain ⟨timeline, report, ht, sums⟩ := (ends_summarize_reported s j).of_ok hr
    rw [ht]
    exact ⟨fun hnow => (fits_reported timeline report).2 ((hfits hnow).of_ok hr), rfl, report, rfl, sums⟩
  · exact ⟨(ends_summarize_reported s j).of_error hr, fun hnow => (hfits hnow).of_error hr⟩

end Statistics

/-! ### The call that ends a run -/

namespace Engine

variable {κ : Type} {s : Setup}

/-- The run has ended, at a tick that is a counter. -/
def Over (e : Engine κ) : Prop := ∃ tick < Counter.limit, e.workload.finishTick = some tick

/-- The run has been summed up. -/
structure Accounted (s : Setup) (e : Engine κ) : Prop where
  ended : ∀ n ∈ s.trace, Record.ended e.workload.statistics.records n.id = true
  fits : e.workload.statistics.Fits
  report : ∃ report, e.workload.report = some report ∧ report.SumsUp e.workload.statistics

/-- The run could not be summed up: all nodes have completed, but the sums do not fit, and there is no
report. -/
structure Unaccounted (s : Setup) (e : Engine κ) : Prop where
  ended : ∀ n ∈ s.trace, Record.ended e.workload.statistics.records n.id = true
  overflows : ¬e.workload.statistics.Fits
  unreported : e.workload.report = none

/-- A run that goes on is not over. -/
theorem not_over {e : Engine κ} (goesOn : e.workload.finishTick = none) : ¬e.Over := by
  rintro ⟨tick, -, htick⟩
  cases goesOn.symm.trans htick

variable [Kernel κ] {m : Moment κ}

/-- The check whether the run has ended sums it up, or stops because a sum is too large. -/
theorem ends_checkTermination_accounts (hc : Coherent s m) (hp : Punctual s m)
    (htraffic : Current Statistics.InTime m.toEngine) (goesOn : m.workload.finishTick = none)
    (unreported : m.workload.report = none) (j : Array Entry) :
    Ends checkTermination ⟨m.toEngine, j⟩ (fun _ t => t.state.Over → t.state.Accounted s)
      fun stop t => t.state.Over → stop = .fault .sumTooLarge ∧ t.state.Unaccounted s := by
  simp only [checkTermination, workloadOf, ends_bind, ends_get, ends_pure, ends_ite]
  refine ⟨fun _ hover => absurd hover (not_over goesOn), fun idle => ?_⟩
  simp only [Bool.or_eq_true, Bool.not_eq_true', not_or, Bool.not_eq_true, Bool.not_eq_false] at idle
  simp only [ends_now, ends_updateWorkload, ends_note, onStatistics, ends_on]
  have ended (n : Node) (hn : n ∈ s.trace) := hc.ended_of_not_hasRemainingWork idle.1 hn
  refine (Statistics.ends_summarize_accounts (hc.unfinished_eq_none idle.1) hp.interval htraffic
    _).imp ?_ ?_
  · rintro _ t ⟨hfits, hrecords, report⟩
    simp only [Statistics.noteReport, ends_bind, ends_get]
    refine ends_forM_note _ ?_
    rintro j ⟨tick, hlt, ⟨⟩⟩
    exact ⟨fun n hn => by rw [hrecords]; exact ended n hn, hfits hlt, report⟩
  · rintro stop t ⟨ht, hbad⟩ ⟨tick, hlt, ⟨⟩⟩
    obtain ⟨overflows, hstop⟩ := hbad hlt
    rw [ht]
    exact ⟨hstop, ended, overflows, unreported⟩

end Engine

/-- **The call that ends a run returns with a report exactly if the sums fit.**  At that call all nodes
have completed.  If the sums fit it returns, and the report sums up what is recorded; if not it stops
because a sum is too large, and there is no report although the run has been marked as ended. -/
theorem Run.reports_iff_fits {κ : Type} [Kernel κ] (steady : Kernel.Steady κ) {s : Setup}
    {calls : List Call} {e : Engine κ} (run : Run s calls e) {k : κ}
    (later : Kernel.now e.kernel ≤ Kernel.now k) (goesOn : e.workload.isFinished = false)
    (event : Event) (j : Array Entry) :
    Ends (Engine.call event) ⟨{ e with kernel := k }, j⟩
      (fun _ t => t.state.Over → t.state.Accounted s)
      fun stop t => t.state.Over → stop = .fault .sumTooLarge ∧ t.state.Unaccounted s := by
  have htraffic := Statistics.invariant_inTime.later (run.inTime steady) later
  obtain ⟨m, rfl, h⟩ := run.atRest
  replace h := h.later later
  have unreported : m.workload.report = none := by
    have hreported := h.reported
    rwa [goesOn, Option.isSome_eq_false_iff, Option.isNone_iff_eq_none] at hreported
  simp only [Engine.call_eq, Engine.workloadOf, ends_bind, ends_get, ends_pure, goesOn,
    Bool.false_eq_true, ↓reduceIte]
  rw [Workload.isFinished, Option.isSome_eq_false_iff, Option.isNone_iff_eq_none] at goesOn
  -- before the check the run goes on, in any case
  have hturn := Engine.upholds_turn Statistics.invariant_inTime steady event
    ⟨{ m.toEngine with kernel := k }, j⟩ goesOn htraffic
  refine (hturn.and (Engine.ends_turn (m := { m with kernel := k }))).imp ?_
    fun _ t ht hover => absurd hover (Engine.not_over ht.1.1)
  rintro _ t ⟨⟨goesOn, htraffic⟩, m₁, turn, ht⟩
  obtain ⟨-, -, -, -, -, hkept⟩ := turn.keeps
  rw [← ht] at goesOn htraffic
  rw [show t = ⟨m₁.toEngine, t.journal⟩ by rw [ht]]
  exact Engine.ends_checkTermination_accounts (h.coherent.moves turn.moves)
    ((h.punctual steady).moves steady h.coherent turn.moves) htraffic goesOn (hkept.trans unreported) _

/-! ### A single computation -/

/-- A single computation. -/
@[irreducible] def Setup.solo (attributes : Attributes) (trackMemory : Bool) : Setup :=
  .ofTrace { trackMemory } [
    { id := 1, name := "task", kind := .compute, dataDeps := [], ctrlDeps := [], attributes }]

/-- A short computation is summed up by the call that completes it. -/
theorem Run.reports_iff_fits_solo : ∃ (e : Engine Scripted) (t : Logged (Engine Scripted)),
    Run (.solo { runtime := some 3 } false) [⟨.wake, none⟩] e ∧
      Engine.call (.nodeFinished ⟨0⟩) ⟨{ e with kernel := { now := 3000 } }, #[]⟩ = .ok () t ∧
      t.state.Over ∧ t.state.Accounted (.solo { runtime := some 3 } false) := by
  have hruns : Ends (Engine.call .wake)
      ⟨(Setup.solo { runtime := some 3 } false).engine ({} : Scripted), #[]⟩
      (fun _ t => t.state.workload.isFinished = false ∧ Kernel.now t.state.kernel ≤ 3000 ∧
        Ends (Engine.call (.nodeFinished ⟨0⟩))
          ⟨{ t.state with kernel := ({ now := 3000 } : Scripted) }, #[]⟩
          (fun _ t => t.state.workload.finishTick = some 3000) fun _ _ => False)
      fun _ _ => False := by decide +kernel
  obtain ⟨_, t₀, hwake, goesOn, later, hends⟩ := hruns.exists_ok
  have start : Run (.solo { runtime := some 3 } false) [] (Setup.engine _ ({} : Scripted)) := .start _
  have run := start.returns (k := {}) (Nat.le_refl _) (.inl rfl) hwake
  obtain ⟨_, t, hcall, hfinish⟩ := hends.exists_ok
  have hover : t.state.Over := ⟨3000, by decide, hfinish⟩
  exact ⟨t₀.state, t, run, hcall, hover,
    (Run.reports_iff_fits Scripted.steady run later goesOn _ _).of_ok hcall hover⟩

/-- A whole run loses its report: all nodes complete, and only then a sum is too large. -/
def Setup.LosesReport (s : Setup) : Prop :=
  Ends Replay.run ⟨s.engine ({ config := {} } : Analytical), #[]⟩ (fun _ _ => False) fun stop t =>
    stop = .fault .sumTooLarge ∧ t.state.workload.isFinished = true ∧
      (∀ n ∈ s.trace, Record.ended t.state.workload.statistics.records n.id = true) ∧
      t.state.workload.report.isSome = false

/-- One computation that takes all the time there is does so, and one that reads two tensors of half as
many bytes as a counter counts. -/
theorem Setup.losesReport_solo :
    (Setup.solo { runtime := some Counter.greatest } false).LosesReport ∧
      (Setup.solo {
        runtime := some 3
        inputs := some ["a", "9223372036854775808", "b", "9223372036854775808"]
        outputs := some [] } true).LosesReport := by
  unfold Setup.LosesReport
  decide +kernel

end TraceReplay
