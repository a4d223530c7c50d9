/-
**The course of a whole run.**

A whole run on the analytical kernel goes from one moment of rest to the next, at first by a wake and
then by the events of the kernel.  This module collects what is known of these moments, and shows that
nothing else is reached: after any number of events the engine is at such a moment, unless a call has
stopped or no event was left.  Once the run has ended its report sums up its records.

Main definitions:

* `Setup.Breaks` — the moments at which a whole run breaks off;
* `Replay.part` — the first events of a whole run.

Main results:

* `Setup.Rests.atRest` — what is known of a moment of rest;
* `Replay.ends_part` — **after any number of events the run rests or has broken off**;
* `Replay.ends_run_rests` — a run that returns rests at the tick that it returns, with a report that sums
  up its records;
* `Setup.Breaks.isOverflow` — a whole run faults only because a counter leaves its range;
* `Replay.ends_run_of_next` — what every event keeps holds at the end of a whole run.
-/

import TraceReplay.Proofs.Engine.Disguise
import TraceReplay.Proofs.Engine.Invariant
import TraceReplay.Proofs.Replay

set_option relaxedAutoImplicit false
set_option autoImplicit false

namespace TraceReplay

open Relation
open TraceReplay.Action

/-! ### Reports -/

/-- The report of an engine, if there is one, is the one of its statistics. -/
def Engine.Told {κ : Type} (e : Engine κ) : Prop :=
  ∀ report, e.workload.report = some report → report.SumsUp e.workload.statistics

/-- A call reports on the statistics that it leaves. -/
theorem Engine.ends_call_told {κ : Type} [Kernel κ] {m : Moment κ} {event : Event}
    {j : Array Entry} (hunfinished : m.workload.isFinished = false)
    (hreport : m.workload.report = none) :
    Ends (call event) ⟨m.toEngine, j⟩ (fun _ t => t.state.Told) fun _ _ => True := by
  simp only [call_eq, workloadOf, ends_bind, ends_get, ends_pure, hunfinished, Bool.false_eq_true,
    ↓reduceIte]
  refine ends_turn.imp ?_ fun _ _ _ => trivial
  rintro _ t ⟨m₁, turn, ht⟩
  obtain ⟨-, -, -, -, -, hkept⟩ := turn.keeps
  simp only [checkTermination, workloadOf, ends_bind, ends_get, ends_pure, ends_ite]
  refine ⟨fun _ report hsome => ?_, fun _ => ?_⟩
  · rw [← ht, hkept, hreport] at hsome
    cases hsome
  · simp only [ends_note, onStatistics, ends_on]
    refine (Statistics.ends_summarize_reported _ _).imp ?_ fun _ _ _ => trivial
    rintro _ t' ⟨timeline, report, ht', sums⟩
    simp only [Statistics.noteReport, ends_bind, ends_get]
    refine ends_forM_note _ fun j report' hsome => ?_
    rw [ht'] at hsome ⊢
    cases hsome
    exact sums

/-! ### Moments of rest -/

namespace Setup.Rests

variable {s : Setup} {c : AnalyticalConfig} {m : Moment Analytical}

/-- **What is known of a moment at which a whole run rests**: all calls have returned, and the queue of
the kernel holds what is owed. -/
theorem atRest (h : s.Rests c m) :
    ∃ calls, Quiet calls ∧ calls ≠ [] ∧ AtRest s calls m ∧
      Prepared m.kernel m.asked m.delivered := by
  have quiet {event : Event} {calls : List Call} (hquiet : Quiet calls) :
      Quiet (⟨event, none⟩ :: calls) := fun call hcall =>
    (List.mem_cons.1 hcall).elim (fun heq => by rw [heq]) (hquiet call)
  have prepared {m m₁ m₂ : Moment Analytical} {event : Event}
      (h : Prepared m.kernel m.asked (event :: m.delivered)) (turn : Turn event m m₁)
      (settles : Settles m₁ m₂) : Prepared m₂.kernel m₂.asked m₂.delivered := by
    have hdelivered : m₂.delivered = event :: m.delivered := by
      rw [← turn.keeps.1]
      cases settles <;> rfl
    rw [hdelivered]
    exact h.moves (turn.moves.tail (.settle settles))
  induction h with
  | fire turn settles =>
      have hinitial := AtRest.initial s ({ config := c } : Analytical)
      have hunfinished := s.isFinished_moment ({ config := c } : Analytical)
      have hnone : Quiet [] := by simp [Quiet]
      exact ⟨_, quiet hnone, List.cons_ne_nil _ _,
        hinitial.turns hunfinished turn settles, prepared (Prepared.initial c).wake turn settles⟩
  | @next m m₁ m' event k rests goesOn next turn settles ih =>
      obtain ⟨calls, hquiet, -, hrest, hprepared⟩ := ih
      obtain ⟨-, hlater, hprepared⟩ := hprepared.next next
      exact ⟨_, quiet hquiet, List.cons_ne_nil _ _,
        (hrest.later hlater).turns goesOn turn settles,
        prepared (m := { m with kernel := k }) hprepared turn settles⟩

/-- A whole run has a schedule for records. -/
theorem punctual (h : s.Rests c m) : Punctual s m := by
  obtain ⟨calls, -, -, hrest, -⟩ := h.atRest
  exact hrest.punctual Analytical.conforms.toSteady

/-- The nodes left in the queue are blocked. -/
theorem blocked (h : s.Rests c m) : Blocked s m := by
  obtain ⟨calls, hquiet, hfired, hrest, -⟩ := h.atRest
  exact hrest.blocked hquiet hfired

/-- A run that has not ended is about to do something: it has no report yet. -/
theorem report_eq_none (h : s.Rests c m) (goesOn : m.workload.isFinished = false) :
    m.workload.report = none := by
  obtain ⟨calls, -, -, hrest, -⟩ := h.atRest
  have hreported := hrest.reported
  rwa [goesOn, Option.isSome_eq_false_iff, Option.isNone_iff_eq_none] at hreported

/-- A run ends at the present tick. -/
theorem finishTick_eq (h : s.Rests c m) (hfinished : m.workload.isFinished = true) :
    m.workload.finishTick = some m.kernel.now := by
  have ends {m m₁ m₂ : Moment Analytical} {event : Event} (hfresh : m.workload.isFinished = false)
      (turn : Turn event m m₁) (settles : Settles m₁ m₂) (hfinished : m₂.workload.isFinished = true) :
      m₂.workload.finishTick = some m₂.kernel.now := by
    cases settles with
    | goOn busy =>
        obtain ⟨-, -, -, -, hkeeps, -⟩ := turn.keeps
        rw [Workload.isFinished, hkeeps] at hfinished
        cases hfinished.symm.trans hfresh
    | finish done idle => rfl
  cases h with
  | fire turn settles => exact ends (s.isFinished_moment _) turn settles hfinished
  | @next m₀ m₁ _ event k rests goesOn next turn settles =>
      exact ends (m := { m₀ with kernel := k }) goesOn turn settles hfinished

end Setup.Rests

/-! ### What is reached -/

/-- The moments at which a whole run breaks off, with the reason: a call stops, or no event is left. -/
inductive Setup.Breaks (s : Setup) (c : AnalyticalConfig) : Stop → Moment Analytical → Prop
  | fire {m : Moment Analytical} {stop : Stop} (halts : Halts .wake (s.moment { config := c }) stop m) :
      Breaks s c stop m
  | next {m m' : Moment Analytical} {event : Event} {k : Analytical} {stop : Stop}
      (rests : s.Rests c m) (goesOn : m.workload.isFinished = false)
      (next : m.kernel.next? = some (event, k)) (halts : Halts event { m with kernel := k } stop m') :
      Breaks s c stop m'
  | stall {m : Moment Analytical} (rests : s.Rests c m) (goesOn : m.workload.isFinished = false)
      (none : m.kernel.next? = none) : Breaks s c (.error (.stalled m.workload.graph.remaining)) m

/-- **A whole run faults only because a counter leaves its range.** -/
theorem Setup.Breaks.isOverflow {s : Setup} {c : AnalyticalConfig} {f : Fault} {m : Moment Analytical}
    (h : s.Breaks c (.fault f) m) : f.isOverflow = true := by
  have stops {calls : List Call} {m₀ : Moment Analytical} {event : Event} (hrest : AtRest s calls m₀)
      (allowed : event = .wake ∨ Outstanding m₀.delivered m₀.asked event)
      (prepared : Prepared m₀.kernel m₀.asked (event :: m₀.delivered))
      (halts : Halts event m₀ (.fault f) m) : f.isOverflow = true := by
    obtain ⟨_, ⟨⟩, -⟩ | ⟨_, ⟨⟩, hf⟩ := halts.reason hrest.coherent
    rcases hf Analytical.conforms (hrest.punctual Analytical.conforms.toSteady) allowed with
      hoverflow | ⟨m₁, hmoves, -, reissues⟩
    · exact hoverflow
    · exact absurd reissues (Prepared.moves prepared hmoves).not_reissues
  cases h with
  | fire halts => exact stops (AtRest.initial s _) (.inl rfl) (Prepared.initial c).wake halts
  | next rests goesOn next halts =>
      obtain ⟨calls, -, -, hrest, hprepared⟩ := rests.atRest
      obtain ⟨hout, hlater, hprepared⟩ := hprepared.next next
      exact stops (hrest.later hlater) (.inr hout) hprepared halts

namespace Replay

open Engine

/-- The first events of a whole run. -/
def part (events : Nat) : Act Analytical Unit := do
  fire
  finishWithin events

variable {s : Setup} {c : AnalyticalConfig} {j : Array Entry}

/-- After more events the run rests or has broken off. -/
theorem ends_finishWithin_rests {events : Nat} : ∀ {m : Moment Analytical} {j : Array Entry},
    s.Rests c m → m.Told → Ends (finishWithin events) ⟨m.toEngine, j⟩
      (fun _ t => ∃ m', s.Rests c m' ∧ m'.toEngine = t.state ∧ t.state.Told ∧
        (bound m.toEngine < events → t.state.workload.isFinished = true))
      fun stop t => ∃ m', s.Breaks c stop m' ∧ m'.toEngine = t.state := by
  induction events with
  | zero => exact fun rests told => ⟨_, rests, rfl, told, fun hlt => absurd hlt (Nat.not_lt_zero _)⟩
  | succ events ih =>
      intro m j rests told
      simp only [finishWithin, ends_bind, ends_get, ends_ite, ends_pure]
      refine ⟨fun hfinished => ⟨m, rests, rfl, told, fun _ => hfinished⟩, fun hunfinished => ?_⟩
      have goesOn := Bool.eq_false_iff.2 hunfinished
      simp only [step, ends_bind, ends_get]
      cases hnext : m.kernel.next? with
      | none => exact ⟨m, .stall rests goesOn hnext, rfl⟩
      | some next =>
          obtain ⟨event, k⟩ := next
          have hpending := Analytical.pending_of_next hnext
          simp only [ends_update, ends_bind]
          have hcall : Ends (call event) ⟨{ m.toEngine with kernel := k }, j⟩ _ _ :=
            (Engine.ends_call (m := { m with kernel := k }) goesOn).and
              (ends_call_told (m := { m with kernel := k }) goesOn (rests.report_eq_none goesOn))
          refine ends_iff.2 ⟨fun _ t hrun => ?_, fun stop t hrun => ?_⟩
          · obtain ⟨⟨m₁, m', turn, settles, ht⟩, told'⟩ := hcall.of_ok hrun
            have hbound : bound t.state ≤ bound { m.toEngine with kernel := k } := bound_call_le hrun
            rw [← ht] at told' hbound
            rw [show t = ⟨m'.toEngine, t.journal⟩ by rw [ht]]
            refine (ih (.next rests goesOn hnext turn settles) told').imp ?_ fun _ _ h => h
            rintro _ t ⟨m₂, rests', ht₂, told₂, hdone⟩
            refine ⟨m₂, rests', ht₂, told₂, fun hlt => hdone ?_⟩
            simp only [bound] at hbound hlt ⊢
            omega
          · obtain ⟨⟨m', halts, ht⟩, -⟩ := hcall.of_error hrun
            exact ⟨m', .next rests goesOn hnext halts, ht⟩

/-- The first wake of a whole run. -/
theorem ends_fire_rests : Ends fire ⟨s.engine { config := c }, j⟩
    (fun _ t => ∃ m, s.Rests c m ∧ m.toEngine = t.state ∧ t.state.Told)
    fun stop t => ∃ m, s.Breaks c stop m ∧ m.toEngine = t.state := by
  have hunfinished := s.isFinished_moment { config := c : Analytical }
  have hunreported : (s.moment { config := c : Analytical }).workload.report = none := by
    obtain ⟨-, group, hw⟩ := s.created_iff
    simp only [Setup.moment, Setup.engine, hw]
    rfl
  refine ((Engine.ends_call hunfinished).and (ends_call_told hunfinished hunreported)).imp ?_ ?_
  · rintro _ t ⟨⟨m₁, m, turn, settles, ht⟩, told⟩
    exact ⟨m, .fire turn settles, ht, told⟩
  · rintro stop t ⟨⟨m, halts, ht⟩, -⟩
    exact ⟨m, .fire halts, ht⟩

/-- **After any number of events the run rests or has broken off.** -/
theorem ends_part (events : Nat) : Ends (part events) ⟨s.engine { config := c }, j⟩
    (fun _ t => ∃ m, s.Rests c m ∧ m.toEngine = t.state)
    fun stop t => ∃ m, s.Breaks c stop m ∧ m.toEngine = t.state := by
  rw [part, ends_bind]
  refine ends_fire_rests.imp ?_ fun _ _ h => h
  rintro _ t ⟨m, rests, ht, told⟩
  rw [← ht] at told
  rw [show t = ⟨m.toEngine, t.journal⟩ by rw [ht]]
  refine (ends_finishWithin_rests rests told).imp ?_ fun _ _ h => h
  rintro _ t ⟨m', rests', ht', -⟩
  exact ⟨m', rests', ht'⟩

/-- **A run that returns rests at the tick that it returns**, with a report that sums up its records. -/
theorem ends_run_rests : Ends run ⟨s.engine { config := c }, j⟩
    (fun tick t => t.state.workload.finishTick = some tick ∧
      (∃ report, t.state.workload.report = some report ∧ report.SumsUp t.state.workload.statistics) ∧
      ∃ m, s.Rests c m ∧ m.toEngine = t.state ∧ m.kernel.now = tick)
    fun stop t => ∃ m, s.Breaks c stop m ∧ m.toEngine = t.state := by
  simp only [run, ends_bind, ends_get, ends_pure]
  refine ends_fire_rests.imp ?_ fun _ _ h => h
  rintro _ t ⟨m, rests, ht, told⟩
  rw [← ht] at told
  rw [show t = ⟨m.toEngine, t.journal⟩ by rw [ht]]
  refine (ends_finishWithin_rests rests told).imp ?_ fun _ _ h => h
  rintro _ t ⟨m', rests', ht', told', hdone⟩
  have hfinished := hdone (Nat.lt_succ_self _)
  rw [← ht'] at hfinished
  have htick := rests'.finishTick_eq hfinished
  have hreport : t.state.workload.report.isSome = true := by
    obtain ⟨calls, -, -, hrest, -⟩ := rests'.atRest
    rw [← ht', hrest.reported, hfinished]
  obtain ⟨report, hreport⟩ := Option.isSome_iff_exists.1 hreport
  rw [ht'] at htick
  refine ⟨?_, ⟨report, hreport, told' report hreport⟩, m', rests', ht', ?_⟩
  · rw [htick]
    rfl
  · rw [htick, ← ht']
    rfl

/-! ### What a whole run keeps -/

section

variable {I : Logged (Engine Analytical) → Prop} {E : Stop → Prop}
variable (next : ∀ {m : Moment Analytical} {event : Event} {k : Analytical} (j : Array Entry),
  s.Rests c m → m.workload.isFinished = false → m.kernel.next? = some (event, k) →
    I ⟨m.toEngine, j⟩ →
      Ends (call event) ⟨{ m.toEngine with kernel := k }, j⟩ (fun _ t => I t) fun stop _ => E stop)
variable (stall : ∀ left, E (.error (.stalled left)))

include next stall

/-- What the events keep one by one they keep together. -/
theorem ends_finishWithin_of_next {events : Nat} : ∀ {m : Moment Analytical} {j : Array Entry},
    s.Rests c m → I ⟨m.toEngine, j⟩ →
      Ends (finishWithin events) ⟨m.toEngine, j⟩ (fun _ t => I t) fun stop _ => E stop := by
  induction events with
  | zero => exact fun _ hI => hI
  | succ events ih =>
      intro m j rests hI
      simp only [finishWithin, ends_bind, ends_get, ends_ite, ends_pure]
      refine ⟨fun _ => hI, fun hunfinished => ?_⟩
      have goesOn := Bool.eq_false_iff.2 hunfinished
      simp only [step, ends_bind, ends_get]
      cases hnext : m.kernel.next? with
      | none => exact stall _
      | some nextEvent =>
          obtain ⟨event, k⟩ := nextEvent
          simp only [ends_update, ends_bind]
          refine ((next j rests goesOn hnext hI).and
            (Engine.ends_call (m := { m with kernel := k }) goesOn)).imp ?_ fun _ _ h => h.1
          rintro _ t ⟨hI', m₁, m', turn, settles, ht⟩
          rw [show t = ⟨m'.toEngine, t.journal⟩ by rw [ht]] at hI' ⊢
          exact ih (.next rests goesOn hnext turn settles) hI'

/-- **What the first wake makes true and every event keeps holds at the end of a whole run.** -/
theorem ends_run_of_next (wake : Ends fire ⟨s.engine { config := c }, j⟩ (fun _ t => I t)
    fun stop _ => E stop) :
    Ends run ⟨s.engine { config := c }, j⟩ (fun _ t => I t) fun stop _ => E stop := by
  simp only [run, ends_bind, ends_get, ends_pure]
  refine (wake.and ends_fire_rests).imp ?_ fun _ _ h => h.1
  rintro _ t ⟨hI, m, rests, ht, -⟩
  rw [show t = ⟨m.toEngine, t.journal⟩ by rw [ht]] at hI ⊢
  exact ends_finishWithin_of_next next stall rests hI

end

end Replay

end TraceReplay
