/-
**Invariants of what is recorded.**

A record is opened or closed at the present tick, and between two records only time passes.  So a
property of the statistics at a tick that survives these steps holds in every run, whatever the rest of
the engine does, and also where a call returns an error.  The engine is gone through once, for every
such property.

Main definitions:

* `Report.SumsUp` — a report is the one of some statistics;
* `Statistics.Invariant` — the steps that a property has to survive;
* `Engine.Upholds` — an action keeps a property of an engine whose run goes on.

Main results:

* `Statistics.ends_summarize_returned` — summing up adds a timeline and the report that it returns;
* `Engine.upholds_turn` — what is done with an event keeps an invariant;
* `Run.invariant` — **an invariant holds in every run**;
* `Run.inTime` — in particular the tensor traffic is in time.
-/

import TraceReplay.Proofs.Engine.Run

set_option relaxedAutoImplicit false
set_option autoImplicit false

namespace TraceReplay

open TraceReplay.Action

/-! ### Summing up -/

/-- A report is the one of some statistics.  Building the timeline of the tensor traffic has changed
nothing but that timeline. -/
structure Report.SumsUp (r : Report) (s : Statistics) : Prop where
  sysId : r.sysId = s.sysId
  wallTime : r.wallTime = s.wallTime
  typeTimes : s.typeTimes = .ok r.typeTimes
  utilizations : s.utilizations = .ok r.utilizations
  memory : ∃ (before : Option Tracker) (built : Option (Tracker × MemoryReport)),
    before.mapM Statistics.buildTimeline = .ok built ∧
      s.memory = built.map Prod.fst ∧ r.memory = built.map Prod.snd

/-- The statistics with a timeline, if memory is tracked, and a report. -/
def Statistics.reported (s : Statistics) (timeline : Timeline) (report : Report) : Statistics :=
  { s with memory := s.memory.map fun m => { m with timeline }, report := some report }

/-- **Summing up changes nothing but the timeline, and returns the report of the statistics that it
leaves.** -/
theorem Statistics.ends_summarize_returned (s : Statistics) (j : Array Entry) :
    Ends summarize ⟨s, j⟩
      (fun report t => ∃ timeline, t.state = s.reported timeline report ∧
        report.SumsUp (s.reported timeline report))
      fun _ t => t.state = s := by
  simp only [summarize, ends_bind, ends_get, ends_note]
  cases s.unfinished? with
  | some r => rfl
  | none =>
      simp only [ends_bind]
      cases htypes : s.typeTimes with
      | error f => rfl
      | ok typeTimes =>
          cases hmeans : s.utilizations with
          | error f => rfl
          | ok utilizations =>
              cases hbuilt : s.memory.mapM buildTimeline with
              | error f => rfl
              | ok built =>
                  obtain ⟨timeline, heq⟩ := exists_timeline_of_mapM hbuilt
                  refine ⟨timeline, ?_, ?_⟩
                  · rw [reported, ← heq]
                  · exact ⟨rfl, rfl, htypes, hmeans, s.memory, built, hbuilt, heq.symm, rfl⟩

/-- The report that summing up leaves is one of the statistics. -/
theorem Statistics.ends_summarize_reported (s : Statistics) (j : Array Entry) :
    Ends summarize ⟨s, j⟩
      (fun _ t => ∃ timeline report, t.state = s.reported timeline report ∧
        report.SumsUp (s.reported timeline report))
      fun _ t => t.state = s :=
  (s.ends_summarize_returned j).imp (fun report _ ⟨timeline, ht⟩ => ⟨timeline, report, ht⟩)
    fun _ _ ht => ht

/-- **The timeline that is reported is the one of the tracker.** -/
theorem Report.SumsUp.timeline_eq {r : Report} {s : Statistics} {m : Tracker} (h : r.SumsUp s)
    (tracked : s.memory = some m) : m.timelineOf = .ok m.timeline ∧
      ∃ memory, r.memory = some memory ∧ memory.timeline = m.timeline := by
  obtain ⟨before, built, hbuilt, hmemory, hreported⟩ := h.memory
  rw [tracked] at hmemory
  obtain ⟨⟨_, memory⟩, rfl, rfl⟩ := Option.map_eq_some_iff.1 hmemory.symm
  cases before with
  | none => cases hbuilt
  | some m₀ =>
      rw [Option.mapM_some] at hbuilt
      cases hone : Statistics.buildTimeline m₀ with
      | error f =>
          rw [hone] at hbuilt
          cases hbuilt
      | ok one =>
          rw [hone] at hbuilt
          cases hbuilt
          obtain ⟨timeline, htimeline, rfl, heq⟩ := Statistics.exists_timeline_of_buildTimeline hone
          exact ⟨(Tracker.timelineOf_withTimeline timeline).trans htimeline, memory, hreported, heq⟩

/-! ### Invariants -/

/-- A property of statistics at a tick that survives everything that is done to them. -/
structure Statistics.Invariant (P : Statistics → Tick → Prop) : Prop where
  /-- Time passes. -/
  later : ∀ {s tick tick'}, P s tick → tick ≤ tick' → P s tick'
  start : ∀ {s tick} (id : NodeId) (c : OperatorType), P s tick → P (s.recordStart id c tick) tick
  estimate : ∀ {s s' tick id estimate}, P s tick → s.recordEstimate id estimate = .ok s' → P s' tick
  /-- A record is closed; its tensor traffic may be wrong. -/
  finish : ∀ {s tick} (n : Node) (j : Array Entry), P s tick →
    Ends (recordEnd n tick) ⟨s, j⟩ (fun _ t => P t.state tick) fun _ t => P t.state tick
  /-- The run is summed up. -/
  report : ∀ {s tick} (timeline : Timeline) (report : Report), P s tick →
    P (s.reported timeline report) tick

namespace Engine

variable {κ : Type} {α β : Type}

/-- An action keeps a property of an engine whose run goes on, and does not end the run.  Nothing is
said about the property after a fault. -/
def Upholds (I : Engine κ → Prop) (act : Act κ α) : Prop :=
  ∀ t : Logged (Engine κ), t.state.workload.finishTick = none → I t.state →
    Ends act t (fun _ t => t.state.workload.finishTick = none ∧ I t.state)
      fun stop t => t.state.workload.finishTick = none ∧ ∀ x, stop = .error x → I t.state

namespace Upholds

variable {I : Engine κ → Prop}

theorem pure (a : α) : Upholds I (Pure.pure a) := fun _ goesOn h => ⟨goesOn, h⟩

theorem throw (stop : Stop) : Upholds I (MonadExcept.throw stop : Act κ α) := fun _ goesOn h =>
  ⟨goesOn, fun _ _ => h⟩

theorem bind {x : Act κ β} {f : β → Act κ α} (hx : Upholds I x) (hf : ∀ b, Upholds I (f b)) :
    Upholds I (x >>= f) := fun t goesOn h => by
  rw [ends_bind]
  exact (hx t goesOn h).imp (fun b t ht => hf b t ht.1 ht.2) fun _ _ ht => ht

theorem ite {c : Prop} [Decidable c] {x y : Act κ α} (hx : Upholds I x) (hy : Upholds I y) :
    Upholds I (if c then x else y) := by
  split
  · exact hx
  · exact hy

theorem lift (r : Except Stop α) : Upholds I (Action.lift r) := by
  cases r with
  | ok a => exact .pure a
  | error stop => exact .throw stop

theorem note (entry : Entry) : Upholds I (Action.note entry) := fun _ goesOn h => ⟨goesOn, h⟩

theorem workloadOf : Upholds I workloadOf := fun _ goesOn h => ⟨goesOn, h⟩

theorem lookup (id : NodeId) : Upholds I (lookup id) :=
  workloadOf.bind fun w => by
    cases w.graph.lookup id with
    | none => exact .throw _
    | some n => exact .pure n

theorem traceLine (entry : Nat → Entry) : Upholds I (traceLine entry) :=
  workloadOf.bind fun _ => .ite (.note _) (.pure _)

theorem planOf (n : Node) : Upholds I (planOf n) :=
  workloadOf.bind fun w => by
    split
    · exact .pure _
    · exact .ite ((note _).bind fun _ => .pure _) (.throw _)
    · exact .throw _

end Upholds

/-! ### Properties that read the records and the clock -/

/-- A property that says nothing about the graph, the slots and what is in flight. -/
def Framed (I : Engine κ → Prop) : Prop :=
  ∀ {e : Engine κ} {w : Workload} {asked : Array (NodeId × Issued)},
    w.statistics = e.workload.statistics → I e → I { e with workload := w, asked }

namespace Framed

variable {I : Engine κ → Prop}

theorem updateWorkload (h : Framed I) {f : Workload → Workload}
    (hf : ∀ w, (f w).statistics = w.statistics ∧ (f w).finishTick = w.finishTick) :
    Upholds I (updateWorkload f) := fun _ goesOn hI =>
  ⟨(hf _).2.trans goesOn, h (hf _).1 hI⟩

theorem noteRequest (h : Framed I) (id : NodeId) (r : Issued) : Upholds I (noteRequest id r) :=
  fun _ goesOn hI => ⟨goesOn, h rfl hI⟩

theorem onPool (h : Framed I) (act : Action Fault SlotPool α) : Upholds I (onPool act) := by
  intro t goesOn hI
  simp only [Engine.onPool, ends_on, ends_stopAs]
  exact ends_iff.2 ⟨fun _ _ _ => ⟨goesOn, h rfl hI⟩, fun _ _ _ => ⟨goesOn, fun _ hx => by cases hx⟩⟩

theorem onGatherings (h : Framed I) (act : Action Fault Gatherings α) :
    Upholds I (onGatherings act) := by
  intro t goesOn hI
  simp only [Engine.onGatherings, ends_on, ends_stopAs]
  exact ends_iff.2 ⟨fun _ _ _ => ⟨goesOn, h rfl hI⟩, fun _ _ _ => ⟨goesOn, fun _ hx => by cases hx⟩⟩

theorem changeGraph (h : Framed I) (f : Graph → Except Fault Graph) : Upholds I (changeGraph f) :=
  Upholds.workloadOf.bind fun _ => (Upholds.lift _).bind fun _ =>
    h.updateWorkload fun _ => ⟨rfl, rfl⟩

theorem takeReady (h : Framed I) : Upholds I takeReady :=
  Upholds.workloadOf.bind fun w => by
    cases w.graph.takeReady? with
    | none => exact .pure none
    | some first =>
        refine (h.updateWorkload ?_).bind fun _ => .pure _
        exact fun _ => ⟨rfl, rfl⟩

theorem handBack (h : Framed I) (ids : List NodeId) : Upholds I (handBack ids) :=
  h.updateWorkload fun _ => ⟨rfl, rfl⟩

theorem arrive (h : Framed I) (event : Event) : Upholds I (arrive event) := by
  have token (token : Token) : Upholds I (Engine.workloadOf >>= fun w =>
      Action.lift (orFault (w.inFlight.take token event)) >>= fun back =>
        Engine.updateWorkload (fun w => { w with inFlight := back.2 }) >>= fun _ =>
          pure (some (back.1.node, back.1.nodeClass))) :=
    Upholds.workloadOf.bind fun _ => (Upholds.lift _).bind fun _ => by
      refine (h.updateWorkload ?_).bind fun _ => .pure _
      exact fun _ => ⟨rfl, rfl⟩
  cases event with
  | wake => exact .pure none
  | collectiveFinished handle => exact h.onGatherings _
  | nodeFinished t => exact token t
  | packetSent t => exact token t
  | packetReceived t => exact token t

end Framed

variable [Kernel κ] {P : Statistics → Tick → Prop} {tick : Tick}

/-- The statistics have a property at a tick that has come. -/
def Recorded (P : Statistics → Tick → Prop) (tick : Tick) (e : Engine κ) : Prop :=
  P e.workload.statistics tick ∧ tick ≤ Kernel.now e.kernel

/-- The statistics have a property at the present tick. -/
def Current (P : Statistics → Tick → Prop) (e : Engine κ) : Prop :=
  P e.workload.statistics (Kernel.now e.kernel)

theorem framed_recorded : Framed (Recorded P tick : Engine κ → Prop) := fun hw h =>
  ⟨hw ▸ h.1, h.2⟩

theorem framed_current : Framed (Current P : Engine κ → Prop) := fun hw h => by
  rw [Current, hw]
  exact h

variable (inv : Statistics.Invariant P)

include inv

theorem Recorded.current {e : Engine κ} (h : Recorded P tick e) : Current P e := inv.later h.1 h.2

/-- What is done with the present tick in hand may uphold the property for that tick. -/
theorem upholds_now {f : Tick → Act κ α} (h : ∀ tick, Upholds (Recorded P tick) (f tick)) :
    Upholds (Current P) (now >>= f) := by
  intro t goesOn hcurrent
  rw [ends_bind]
  exact (h (Kernel.now t.state.kernel) t goesOn ⟨hcurrent, Nat.le_refl _⟩).imp
    (fun _ _ ht => ⟨ht.1, Recorded.current inv ht.2⟩)
    fun _ _ ht => ⟨ht.1, fun x hx => Recorded.current inv (ht.2 x hx)⟩

/-! ### Issuing -/

omit inv in
theorem upholds_request (steady : Kernel.Steady κ) (id : NodeId) (c : NodeClass)
    (operation : Operation) : Upholds (Recorded P tick) (request id c operation : Act κ Unit) := by
  rintro ⟨e, j⟩ goesOn ⟨hrecorded, hcome⟩
  simp only [request, workloadOf, updateWorkload, onKernel, noteRequest, InFlight.insert, ends_bind,
    ends_get, ends_pure, ends_update, ends_on, ends_stopAs]
  refine ends_iff.2 ⟨fun _ t ht => ⟨goesOn, hrecorded, ?_⟩,
    fun f t _ => ⟨goesOn, fun x hx => by cases hx⟩⟩
  exact Nat.le_trans hcome (steady.takes ⟨_, t, ht, rfl⟩)

omit inv in
theorem upholds_gather (steady : Kernel.Steady κ) (id : NodeId) (c : NodeClass)
    (gathering : Gathering) : Upholds (Recorded P tick) (gather id c gathering : Act κ Unit) := by
  have gives : Upholds (Recorded P tick) (onKernel (Kernel.gather gathering) : Act κ Handle) := by
    rintro ⟨e, j⟩ goesOn ⟨hrecorded, hcome⟩
    simp only [onKernel, ends_on, ends_stopAs]
    refine ends_iff.2 ⟨fun _ t ht => ⟨goesOn, hrecorded, ?_⟩,
      fun f t _ => ⟨goesOn, fun x hx => by cases hx⟩⟩
    exact Nat.le_trans hcome (steady.gives ⟨_, t, ht, rfl⟩)
  exact gives.bind fun _ => (framed_recorded.noteRequest _ _).bind fun _ =>
    Upholds.workloadOf.bind fun _ => (Upholds.lift _).bind fun _ =>
      framed_recorded.updateWorkload fun _ => ⟨rfl, rfl⟩

theorem upholds_requestEstimated (steady : Kernel.Steady κ) (id : NodeId) (c : NodeClass)
    (numOps ioSize : Nat) :
    Upholds (Recorded P tick) (requestEstimated id c numOps ioSize : Act κ Unit) := by
  rintro ⟨e, j⟩ goesOn ⟨hrecorded, hcome⟩
  simp only [requestEstimated, workloadOf, ends_bind, ends_get, ends_pure]
  cases e.workload.config.roofline with
  | none => exact ⟨goesOn, fun _ _ => ⟨hrecorded, hcome⟩⟩
  | some roofline =>
      simp only [ends_bind, ends_get, ends_pure]
      cases roofline.estimate numOps ioSize with
      | error f => exact ⟨goesOn, fun _ _ => ⟨hrecorded, hcome⟩⟩
      | ok estimate =>
          simp only [ends_lift_orFault_ok]
          cases hs : e.workload.statistics.recordEstimate id estimate with
          | error f => exact ⟨goesOn, fun _ _ => ⟨hrecorded, hcome⟩⟩
          | ok statistics =>
              exact upholds_request steady id c _ _ goesOn ⟨inv.estimate hrecorded hs, hcome⟩

theorem upholds_dispatch (steady : Kernel.Steady κ) (id : NodeId) (c : NodeClass) (plan : Plan) :
    Upholds (Recorded P tick) (dispatch id c plan : Act κ Unit) := by
  cases plan with
  | skip => exact .throw _
  | operation operation => exact upholds_request steady id c operation
  | roofline numOps ioSize => exact upholds_requestEstimated inv steady id c numOps ioSize
  | collective kind size involvedDims priority =>
      exact Upholds.workloadOf.bind fun _ => upholds_gather steady id c _
  | timedCollective duration => exact upholds_gather steady id c _

/-- Opening a record at a tick that has come. -/
theorem upholds_recordStart (id : NodeId) (c : OperatorType) :
    Upholds (Recorded P tick) (updateWorkload fun w =>
      { w with statistics := w.statistics.recordStart id c tick } : Act κ Unit) :=
  fun _ goesOn h => ⟨goesOn, inv.start id c h.1, h.2⟩

/-- Closing a record at a tick that has come. -/
theorem upholds_onStatistics_recordEnd (n : Node) :
    Upholds (Recorded P tick) (onStatistics (Statistics.recordEnd n tick) : Act κ Unit) := by
  intro t goesOn h
  simp only [onStatistics, ends_on]
  exact (inv.finish n t.journal h.1).imp (fun _ _ ht => ⟨goesOn, ht, h.2⟩)
    fun _ _ ht => ⟨goesOn, fun _ _ => ⟨ht, h.2⟩⟩

theorem upholds_skip (n : Node) : Upholds (Recorded P tick) (skip n tick : Act κ Unit) :=
  (upholds_recordStart inv n.id .invalid).bind fun _ =>
    (upholds_onStatistics_recordEnd inv n).bind fun _ =>
      (framed_recorded.changeGraph _).bind fun _ => framed_recorded.changeGraph _

theorem upholds_issue (steady : Kernel.Steady κ) (id : NodeId) :
    Upholds (Current P) (issue id : Act κ Unit) :=
  (Upholds.lookup id).bind fun n => (Upholds.planOf n).bind fun plan =>
    upholds_now inv fun _ => (Upholds.traceLine _).bind fun _ =>
      .ite (upholds_skip inv n) <| (framed_recorded.onPool _).bind fun _ =>
        (upholds_recordStart inv id _).bind fun _ => upholds_dispatch inv steady id n.nodeClass plan

/-! ### Drains and completions -/

theorem upholds_drainFrom (steady : Kernel.Steady κ) {fuel : Nat} : ∀ blocked : List NodeId,
    Upholds (Current P) (drainFrom fuel blocked : Act κ Unit) := by
  induction fuel with
  | zero => exact fun blocked => framed_current.handBack blocked
  | succ fuel ih =>
      refine fun blocked => framed_current.takeReady.bind fun first => ?_
      cases first with
      | none => exact framed_current.handBack blocked
      | some id =>
          exact (Upholds.lookup id).bind fun n => (framed_current.onPool _).bind fun _ =>
            .ite ((upholds_issue inv steady id).bind fun _ => ih blocked) (ih _)

theorem upholds_drain (steady : Kernel.Steady κ) : Upholds (Current P) (drain : Act κ Unit) :=
  Upholds.workloadOf.bind fun _ => upholds_drainFrom inv steady []

theorem upholds_recordEnd (n : Node) : Upholds (Recorded P tick) (recordEnd n tick : Act κ Unit) := by
  intro t goesOn h
  simp only [recordEnd, ends_bind, ends_outcome]
  refine (upholds_onStatistics_recordEnd inv n t goesOn h).imp (fun _ _ ht => ht) ?_
  rintro (x | f) t ⟨goesOn, ht⟩
  · -- the error is forgiven, or returned
    have hforgives : Upholds (Recorded P tick) (do
        let w ← workloadOf
        if w.forgives x then Action.note (.trafficNotRecorded w.config.sysId n.id x)
        else throw (.error x) : Act κ Unit) := Upholds.workloadOf.bind fun _ => .ite (.note _) (.throw _)
    exact hforgives t goesOn (ht x rfl)
  · exact ⟨goesOn, ht⟩

theorem upholds_finishNode (steady : Kernel.Steady κ) (id : NodeId) (c : NodeClass) :
    Upholds (Current P) (finishNode id c : Act κ Unit) := by
  rw [finishNode_eq]
  have hretire : Upholds (Current P) (retire id c : Act κ Unit) :=
    upholds_now inv fun _ => (Upholds.lookup id).bind fun n => (Upholds.traceLine _).bind fun _ =>
      (upholds_recordEnd inv n).bind fun _ => (framed_recorded.onPool _).bind fun _ =>
        framed_recorded.changeGraph _
  exact hretire.bind fun _ => (upholds_drain inv steady).bind fun _ => framed_current.changeGraph _

/-- **What is done with an event keeps an invariant**, and does not end the run. -/
theorem upholds_turn (steady : Kernel.Steady κ) (event : Event) :
    Upholds (Current P) (turn event : Act κ Unit) := by
  by_cases hwake : event = .wake
  · subst hwake
    exact upholds_drain inv steady
  · rw [turn_eq hwake]
    refine (framed_current.arrive event).bind fun back => ?_
    cases back with
    | none => exact .pure ()
    | some node => exact upholds_finishNode inv steady node.1 node.2

/-! ### Calls and runs -/

/-- The check whether the run has ended keeps an invariant. -/
theorem ends_checkTermination_current {t : Logged (Engine κ)} (h : Current P t.state) :
    Ends checkTermination t (fun _ t => Current P t.state)
      fun stop t => ∀ x, stop = .error x → Current P t.state := by
  simp only [checkTermination, workloadOf, ends_bind, ends_get, ends_pure, ends_ite]
  refine ⟨fun _ => h, fun _ => ?_⟩
  simp only [onStatistics, ends_on]
  refine (Statistics.ends_summarize_reported _ _).imp ?_ ?_
  · rintro _ t ⟨timeline, report, ht, -⟩
    simp only [Statistics.noteReport, ends_bind, ends_get]
    refine ends_forM_note _ fun _ => ?_
    rw [ht]
    exact inv.report timeline report h
  · rintro stop t ht x -
    rw [ht]
    exact h

/-- A call keeps an invariant. -/
theorem ends_call_current (steady : Kernel.Steady κ) (event : Event) {t : Logged (Engine κ)}
    (h : Current P t.state) : Ends (call event) t (fun _ t => Current P t.state)
      fun stop t => ∀ x, stop = .error x → Current P t.state := by
  simp only [call_eq, workloadOf, ends_bind, ends_get, ends_pure, ends_ite]
  refine ⟨fun _ => h, fun goesOn => ?_⟩
  rw [Workload.isFinished, Option.not_isSome_iff_eq_none] at goesOn
  refine (upholds_turn inv steady event t goesOn h).imp (fun _ t ht => ?_) fun _ _ ht => ht.2
  exact ends_checkTermination_current inv ht.2

end Engine

/-- **An invariant holds in every run.** -/
theorem Run.invariant {κ : Type} [Kernel κ] {P : Statistics → Tick → Prop}
    (inv : Statistics.Invariant P) (steady : Kernel.Steady κ) {s : Setup}
    (initial : ∀ tick, P s.workload.statistics tick) {calls : List Call} {e : Engine κ}
    (run : Run s calls e) : P e.workload.statistics (Kernel.now e.kernel) := by
  induction run with
  | start k => exact initial _
  | returns run later conforms call ih =>
      exact (Engine.ends_call_current inv steady _ (inv.later ih later)).of_ok call
  | fails run later conforms call ih =>
      exact (Engine.ends_call_current inv steady _ (inv.later ih later)).of_error call _ rfl

/-! ### Tensor traffic -/

/-- The tensor traffic, if it is tracked, is in time. -/
def Statistics.InTime (s : Statistics) (tick : Tick) : Prop :=
  ∀ tracker, s.memory = some tracker → tracker.InTime tick

theorem Statistics.invariant_inTime : Statistics.Invariant Statistics.InTime where
  later := fun h hle tracker htracker => (h tracker htracker).later hle
  start := by
    intro s tick id c h tracker htracker
    rw [recordStart] at htracker
    dsimp only at htracker
    split at htracker
    · exact h tracker htracker
    · obtain ⟨tracker', htracker', rfl⟩ := Option.map_eq_some_iff.1 htracker
      exact (h tracker' htracker').recordStart id
  estimate := by
    intro s s' tick id estimate h hs'
    rw [recordEstimate] at hs'
    split at hs'
    · cases hs'
    · cases hs'
      exact h
  finish := by
    intro s tick n j h
    simp only [recordEnd, ends_bind, ends_get]
    cases s.records.find? n.id with
    | none => exact h
    | some r =>
        simp only [ends_ite, ends_bind, ends_throw, ends_put, ends_pure]
        refine ⟨fun _ => h, fun _ => ⟨fun _ => ?_, fun _ => h⟩⟩
        simp only [onMemory, ends_bind, ends_get]
        cases hmemory : s.memory with
        | none => exact fun _ htracker => by cases htracker
        | some tracker =>
            have one {tracker : Tracker} (ht : tracker.InTime tick) :
                ∀ tracker', some tracker = some tracker' → tracker'.InTime tick := by
              rintro tracker' ⟨⟩
              exact ht
            simp only [ends_on]
            exact ((h tracker hmemory).recordEnd n j).imp (fun _ _ => one) fun _ _ => one
  report := by
    intro s tick timeline report h tracker htracker
    obtain ⟨before, hbefore, rfl⟩ := Option.map_eq_some_iff.1 htracker
    have hintime := h before hbefore
    exact { hintime with reads := hintime.reads }

/-- **In every run the tensor traffic is in time.** -/
theorem Run.inTime {κ : Type} [Kernel κ] (steady : Kernel.Steady κ) {s : Setup} {calls : List Call}
    {e : Engine κ} (run : Run s calls e) :
    e.workload.statistics.InTime (Kernel.now e.kernel) := by
  refine run.invariant Statistics.invariant_inTime steady fun tick tracker htracker => ?_
  obtain ⟨-, group, hw⟩ := s.created_iff
  rw [hw] at htracker
  simp only [Workload.initial, Statistics.ofSystem] at htracker
  split at htracker
  · cases htracker
    exact .initial _ tick
  · cases htracker

end TraceReplay
