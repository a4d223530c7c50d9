/-
**Settings that change what is reported, and not what is done.**

A strict run that ends well never met an error that a lenient run forgives, so the lenient run is the same.
Tracking memory can end a run, but as long as it does not the run is the one without: the statistics are
written before the tensor traffic of a node is looked at, and nothing else reads the traffic.

Main definitions:

* `Setup.validating`, `Setup.tracking` — the same setup in another mode, and with memory tracked or not;
* `Stop.ofTracking` — the reasons to stop that tracking memory may add;
* `Disguise.lenient`, `Disguise.untracked` — the engine of a lenient run, and one that tracks no memory.

Main results:

* `Setup.mirrors_lenient`, `Setup.mirrors_untracked` — whole runs side by side;
* `Setup.lenient_extends_strict` — a lenient run does what a strict run does that ends well, and a strict
  run does not end well where tensors contradict each other in the lenient run;
* `Setup.tracking_passive` — a run that tracks memory does what it would do without.
-/

import TraceReplay.Proofs.Engine.Course

set_option relaxedAutoImplicit false
set_option autoImplicit false

namespace TraceReplay

open TraceReplay.Action

/-! ### Other settings -/

/-- The engine of other settings is made alike, if they can be used and name the same groups. -/
theorem Workload.create_withConfig {files : FileTree} {config config' : EngineConfig} {g : Graph}
    {adapter : Adapter} {w : Workload} {entries : List Entry}
    (h : Workload.create files config g adapter = .ok (w, entries))
    (valid : config'.validate = config.validate)
    (groups : groupOf files config' = groupOf files config) (sysId : config'.sysId = config.sysId) :
    Workload.create files config' g adapter = .ok (.initial config' g adapter w.group, entries) := by
  rw [create] at h ⊢
  rw [valid, groups]
  cases hvalid : config.validate with
  | error e => rw [hvalid] at h; cases h
  | ok _ =>
      cases hgroup : groupOf files config with
      | error e => rw [hvalid, hgroup] at h; cases h
      | ok group =>
          rw [hvalid, hgroup] at h
          cases h
          simp only [groupEntries, sysId]
          rfl

namespace Setup

variable (s : Setup)

/-- The same setup in a mode of validation. -/
def validating (mode : ValidationMode) : Setup :=
  let config := { s.config with validation := mode }
  { s with
    config
    workload := .initial config s.graph .full s.workload.group
    created := Workload.create_withConfig s.created rfl rfl rfl }

/-- The same setup with memory tracked or not. -/
def tracking (trackMemory : Bool) : Setup :=
  let config := { s.config with trackMemory }
  { s with
    config
    workload := .initial config s.graph .full s.workload.group
    created := Workload.create_withConfig s.created rfl rfl rfl }

end Setup

/-! ### Lenient runs -/

namespace Workload

/-- A strict run forgives nothing, -/
theorem forgives_of_isStrict {w : Workload} (h : w.config.isStrict = true) (x : ReplayError) :
    w.forgives x = false := by
  rw [forgives, h]
  rfl

/-- and no run an error that is not local. -/
theorem forgives_of_isLocal {w : Workload} {x : ReplayError} (h : x.isLocal = false) :
    w.forgives x = false := by
  rw [forgives, h, Bool.and_false]

end Workload

namespace Disguise

/-- The engine of a lenient run. -/
def lenient : Disguise where
  node := id
  config := fun config => { config with validation := .lenient }
  memory := id
  report := id

theorem statistics_lenient (st : Statistics) : lenient.statistics st = st := by
  simp [Disguise.statistics, lenient]

theorem mirrors_statistics_lenient {excused : Stop → Prop} {α : Type}
    {act : Action Stop Statistics α} (blind : Blind act) (st : Statistics) :
    Mirrors lenient.statistics excused act act st fun _ _ _ => True := by
  rw [show lenient.statistics = id from funext statistics_lenient]
  exact (blind.mirrors st).imp fun _ _ _ _ => trivial

/-- Planning does not look at the mode. -/
theorem planOf_lenient (w : Workload) (n : Node) : (lenient.workload w).planOf n = w.planOf n := by
  have hgraph : w.graph.mapNodes lenient.node = w.graph := Graph.mapNodes_id w.graph
  simp only [Workload.planOf, workload, hgraph]
  rfl

/-- What a strict run makes of a node a lenient one makes of it, or the error is local. -/
theorem decision_lenient {w : Workload} (strict : w.config.isStrict = true) (n : Node) :
    (lenient.workload w).decision n = w.decision n ∨
      ∃ stop, w.decision n = .error stop ∧ ∃ x, stop = .error x ∧ x.isLocal = true := by
  rw [Workload.decision, Workload.decision, planOf_lenient]
  cases hplan : w.planOf n with
  | ok plan => exact .inl rfl
  | error stop =>
      cases stop with
      | fault f => exact .inl rfl
      | error x =>
          simp only [Workload.forgives_of_isStrict strict, Bool.false_eq_true, if_false]
          cases hlocal : x.isLocal with
          | true => exact .inr ⟨_, rfl, x, rfl, hlocal⟩
          | false =>
              simp only [Workload.forgives_of_isLocal hlocal, Bool.false_eq_true, if_false]
              exact .inl trivial

/-- Closing a record in a strict run and in a lenient one. -/
theorem mirrors_recordEnd_lenient {κ : Type} {e : Engine κ}
    (strict : e.workload.config.isStrict = true) (n : Node) (tick : Tick) :
    Mirrors lenient.engine (fun stop => ∃ x, stop = .error x ∧ x.isLocal = true)
      (Engine.recordEnd n tick) (Engine.recordEnd n tick) e fun _ _ _ => True := by
  have hblind := Statistics.blind_recordEnd n tick
  refine mirrors_bind (mirrors_outcome (mirrors_on rfl (fun _ => rfl)
    ((mirrors_statistics_lenient hblind _).imp fun _ _ _ _ => ?_)) fun j => ?_)
  · exact mirrors_pure trivial
  · refine (ends_on _ _ _).2 (ends_iff.2 ⟨fun _ _ _ => trivial, fun stop t _ => ?_⟩)
    cases stop with
    | fault f => exact mirrors_throw _
    | error x =>
        refine mirrors_bind (mirrors_workloadOf ?_)
        let w : Workload := { e.workload with statistics := t.state }
        show Mirrors _ _ (if w.forgives x then _ else _)
          (if (lenient.workload w).forgives x then _ else _) _ _
        rw [if_neg (Bool.eq_false_iff.1 (Workload.forgives_of_isStrict (w := w) strict x))]
        cases hlocal : x.isLocal with
        | true => exact mirrors_throw_excused ⟨x, rfl, hlocal⟩
        | false =>
            rw [if_neg (Bool.eq_false_iff.1 (Workload.forgives_of_isLocal hlocal))]
            exact mirrors_throw _

variable {s : Setup}

/-- A strict run is not noticed to be a lenient one before it meets a local error. -/
theorem fits_lenient {κ : Type} [Kernel κ] (strict : s.config.isStrict = true) :
    lenient.Fits s κ fun stop => ∃ x, stop = .error x ∧ x.isLocal = true where
  id := fun _ => rfl
  tensorSize := fun _ => rfl
  roofline := rfl
  decision := fun _ n _ => by
    obtain ⟨-, group, hw⟩ := s.created_iff
    refine decision_lenient ?_ n
    rw [hw]
    exact strict
  nodeClass := fun _ _ _ _ => rfl
  opens := fun _ _ _ => rfl
  closes := fun e n tick config _ _ => mirrors_recordEnd_lenient (config ▸ strict) n tick
  summary := fun st => mirrors_statistics_lenient Statistics.blind_summarize st

end Disguise

namespace Setup

variable (s : Setup) (c : AnalyticalConfig)

theorem engine_lenient {κ : Type} (k : κ) :
    (s.validating .lenient).engine k = Disguise.lenient.engine ((s.validating .strict).engine k) := by
  have hgraph : s.graph.mapNodes Disguise.lenient.node = s.graph := Graph.mapNodes_id s.graph
  simp only [Setup.engine, validating, Disguise.engine, Disguise.workload, Workload.initial, hgraph,
    Disguise.statistics_lenient]
  rfl

/-- A strict run and the lenient one side by side. -/
theorem mirrors_lenient : Mirrors Disguise.lenient.engine
    (fun stop => ∃ x, stop = .error x ∧ x.isLocal = true) Replay.run Replay.run
    ((s.validating .strict).engine { config := c }) fun tick tick' _ => tick' = tick :=
  (Disguise.fits_lenient rfl).mirrors_run fun _ _ _ _ _ _ => rfl

/-- **Lenient extends strict.**  If the strict run ends well then the lenient run ends at the same tick,
with the same requests and the same statistics, which include records, tensor traffic and report.  If the
lenient run finds that a tensor is written twice or with two sizes, then the strict run ends with an error
too. -/
theorem lenient_extends_strict (j j' : Array Entry) :
    Ends Replay.run ⟨(s.validating .strict).engine { config := c }, j⟩
      (fun tick t => Ends Replay.run ⟨(s.validating .lenient).engine { config := c }, j'⟩
        (fun tick' t' => tick' = tick ∧ t'.state.asked = t.state.asked ∧
          t'.state.workload.statistics = t.state.workload.statistics)
        fun _ _ => False)
      (fun _ _ => True) ∧
    Ends Replay.run ⟨(s.validating .lenient).engine { config := c }, j'⟩ (fun _ _ => True)
      fun stop _ =>
        ((∃ tensor id, stop = .error (.tensorRewritten tensor id)) ∨
          ∃ tensor recorded observed,
            stop = .error (.tensorSizeMismatch tensor recorded observed)) →
        Ends Replay.run ⟨(s.validating .strict).engine { config := c }, j⟩ (fun _ _ => False)
          fun stop' _ => ∃ x, stop' = .error x := by
  have hrun := s.mirrors_lenient c j j'
  rw [← s.engine_lenient] at hrun
  refine ⟨hrun.imp (fun tick t hok => hok.imp ?_ fun _ _ hfalse => hfalse) fun _ _ _ => trivial,
    ends_iff.2 ⟨fun _ _ _ => trivial, fun stop t hlenient hstop => ?_⟩⟩
  · rintro tick' t' ⟨ht, htick⟩
    rw [ht]
    exact ⟨htick, rfl, Disguise.statistics_lenient _⟩
  · -- neither a result nor a stop that is not local would leave the lenient run with this error
    refine hrun.imp (fun tick u hok => hok.of_error hlenient) fun stop' u hstop' => ?_
    rcases hstop' with ⟨x, hx, -⟩ | hsame
    · exact ⟨x, hx⟩
    · obtain ⟨rfl, -⟩ := hsame.of_error hlenient
      rcases hstop with ⟨tensor, id, hx⟩ | ⟨tensor, recorded, observed, hx⟩
      · exact ⟨_, hx⟩
      · exact ⟨_, hx⟩

/-- Two computations, one on the CPU and one on the GPU, that write a tensor each. -/
@[irreducible] def writers (first second : String) : Setup :=
  let write (id : NodeId) (isCpuOp : Bool) (tensor : String) : Node :=
    { id, name := "write", kind := .compute, dataDeps := [], ctrlDeps := []
      attributes := {
        runtime := some 1, isCpuOp := some isCpuOp
        inputs := some [], outputs := some [tensor, "4"] } }
  .ofTrace { trackMemory := true } [write 1 true first, write 2 false second]

/-- If they write different tensors both runs end well and alike.  A tensor that is written twice ends the
lenient run, and so the strict one. -/
theorem lenient_extends_strict_writers :
    (∃ t t', Replay.run ⟨((writers "a" "b").validating .strict).engine { config := {} }, #[]⟩ = .ok 1000 t ∧
      Replay.run ⟨((writers "a" "b").validating .lenient).engine { config := {} }, #[]⟩ = .ok 1000 t' ∧
      t'.state.asked = t.state.asked ∧ t'.state.workload.statistics = t.state.workload.statistics) ∧
    ∃ x t, Replay.run ⟨((writers "a" "a").validating .strict).engine { config := {} }, #[]⟩ =
      .error (.error x) t := by
  have hruns : Ends Replay.run ⟨((writers "a" "b").validating .strict).engine { config := {} }, #[]⟩
      (fun tick _ => tick = 1000) fun _ _ => False := by decide +kernel
  have hrewrites : Ends Replay.run ⟨((writers "a" "a").validating .lenient).engine { config := {} }, #[]⟩
      (fun _ _ => False) fun stop _ => stop = .error (.tensorRewritten "a" 2) := by decide +kernel
  constructor
  · obtain ⟨_, t, hrun, rfl⟩ := hruns.exists_ok
    obtain ⟨hlenient, -⟩ := lenient_extends_strict (writers "a" "b") {} #[] #[]
    obtain ⟨_, t', hrun', rfl, hasked, hstatistics⟩ := (hlenient.of_ok hrun).exists_ok
    exact ⟨t, t', hrun, hrun', hasked, hstatistics⟩
  · obtain ⟨_, t, hrun, rfl⟩ := hrewrites.exists_error
    obtain ⟨-, hstrict⟩ := lenient_extends_strict (writers "a" "a") {} #[] #[]
    obtain ⟨_, t', hrun', x, rfl⟩ := (hstrict.of_error hrun (.inl ⟨"a", 2, rfl⟩)).exists_error
    exact ⟨x, t', hrun'⟩

end Setup

/-! ### Runs that track no memory -/

/-- The reasons to stop that tracking memory may add: what is wrong with tensors, and faults. -/
def Stop.ofTracking (stop : Stop) : Prop := ∀ x, stop = .error x → x.isTraffic = true

namespace Disguise

/-- The engine that tracks no memory. -/
def untracked : Disguise where
  node := id
  config := fun config => { config with trackMemory := false }
  memory := fun _ => none
  report := fun report => { report with memory := none }

/-- A record that is closed with tensor traffic is closed without. -/
theorem ends_recordEnd_untracked {n : Node} {tick : Tick} {st st' : Statistics}
    (closed : st.Closed n tick st') (j : Array Entry) :
    Ends (Statistics.recordEnd n tick) ⟨untracked.statistics st, j⟩
      (fun _ t => t.state = untracked.statistics st') fun _ _ => False := by
  obtain ⟨r, memory, hr, hstart, -, rfl⟩ := closed
  refine Engine.ends_recordEnd (fun st' j' closed' => ?_) (fun f t bad => ?_)
    (fun x st' j' tracked => absurd rfl tracked) fun f t tracker tracked => by cases tracked
  · obtain ⟨r', memory', hr', -, hmemory, rfl⟩ := closed'
    cases hr.symm.trans hr'
    cases hmemory
    rfl
  · exact absurd (bad r hr) (Nat.not_lt.2 hstart)

/-- Closing a record with tensor traffic and without. -/
theorem mirrors_recordEnd_untracked {κ : Type} {e : Engine κ} (n : Node) (tick : Tick) :
    Mirrors untracked.engine Stop.ofTracking (Engine.recordEnd n tick) (Engine.recordEnd n tick) e
      fun _ _ _ => True := by
  intro j j'
  have htracked : Ends (Engine.recordEnd n tick) ⟨e, j⟩
      (fun _ t => ∃ st', e.workload.statistics.Closed n tick st' ∧
        t.state = { e with workload := { e.workload with statistics := st' } })
      fun stop _ => stop.ofTracking := by
    simp only [Engine.recordEnd, Engine.onStatistics, ends_bind, ends_outcome, ends_on]
    refine Engine.ends_recordEnd (fun st' _ closed => ⟨st', closed, rfl⟩)
      (fun f t _ x hx => by cases hx) (fun x st' j₁ _ closed traffic => ?_)
      (fun f t _ _ _ x hx => by cases hx)
    simp only [Engine.workloadOf, ends_bind, ends_get, ends_pure, ends_ite, ends_note, ends_throw]
    refine ⟨fun _ => ⟨st', closed, rfl⟩, fun _ => ?_⟩
    rintro _ ⟨⟩
    exact traffic
  refine htracked.imp ?_ fun _ _ => .inl
  rintro _ t ⟨st', closed, ht⟩
  rw [ht]
  simp only [Engine.recordEnd, Engine.onStatistics, ends_bind, ends_outcome, ends_on]
  refine (ends_recordEnd_untracked closed j').imp (fun _ t' ht' => ?_) fun _ _ hfalse => hfalse.elim
  exact ⟨by rw [ht']; rfl, trivial⟩

/-- Summing up a run with tensor traffic and without. -/
theorem mirrors_summarize_untracked (st : Statistics) :
    Mirrors untracked.statistics Stop.ofTracking Statistics.summarize Statistics.summarize st
      fun _ _ _ => True := by
  refine mirrors_bind (mirrors_get (mirrors_bind (mirrors_note ?_)))
  have hunfinished : (untracked.statistics st).unfinished? = st.unfinished? := rfl
  rw [hunfinished]
  cases st.unfinished? with
  | some r => exact mirrors_bind (mirrors_throw _)
  | none =>
      refine mirrors_bind (mirrors_lift fun typeTimes _ => ?_)
      refine mirrors_bind (mirrors_lift fun utilizations _ => ?_)
      cases st.memory.mapM Statistics.buildTimeline with
      | error f => exact fun _ _ => .inl fun x hx => by cases hx
      | ok built =>
          refine mirrors_bind (mirrors_pure (mirrors_bind (mirrors_note ?_)))
          exact mirrors_bind (mirrors_put rfl (mirrors_pure trivial))

/-- What is made of a node does not depend on whether memory is tracked. -/
theorem decision_untracked (w : Workload) (n : Node) :
    (untracked.workload w).decision n = w.decision n := by
  have hgraph : w.graph.mapNodes untracked.node = w.graph := Graph.mapNodes_id w.graph
  simp only [Workload.decision, Workload.planOf, workload, hgraph]
  rfl

/-- The engine that tracks memory does not notice that it does, before that stops it. -/
theorem fits_untracked (s : Setup) (κ : Type) [Kernel κ] : untracked.Fits s κ Stop.ofTracking where
  id := fun _ => rfl
  tensorSize := fun _ => rfl
  roofline := rfl
  decision := fun _ n _ => .inl (decision_untracked s.workload n)
  nodeClass := fun _ _ _ _ => rfl
  opens := fun _ _ _ => rfl
  closes := fun _ n tick _ _ _ => mirrors_recordEnd_untracked n tick
  summary := mirrors_summarize_untracked

end Disguise

namespace Setup

variable (s : Setup) (c : AnalyticalConfig)

theorem engine_untracked {κ : Type} (k : κ) :
    (s.tracking false).engine k = Disguise.untracked.engine (s.engine k) := by
  obtain ⟨-, group, hw⟩ := s.created_iff
  have hgraph : s.graph.mapNodes Disguise.untracked.node = s.graph := Graph.mapNodes_id s.graph
  simp only [Setup.engine, tracking, Disguise.engine, Disguise.workload, hw, Workload.initial, hgraph]
  rfl

/-- A run and the one that tracks no memory side by side. -/
theorem mirrors_untracked : Mirrors Disguise.untracked.engine Stop.ofTracking Replay.run Replay.run
    (s.engine { config := c }) fun tick tick' _ => tick' = tick :=
  (Disguise.fits_untracked s Analytical).mirrors_run fun _ _ _ _ _ _ => rfl

/-- **Memory tracking is a passive observer.**  If the run that tracks memory ends well then the one that
does not ends at the same tick, with the same requests, the same records and the same report, except that
no use of memory is reported. -/
theorem tracking_passive (j j' : Array Entry) :
    Ends Replay.run ⟨(s.tracking true).engine { config := c }, j⟩
      (fun tick t => Ends Replay.run ⟨(s.tracking false).engine { config := c }, j'⟩
        (fun tick' t' => tick' = tick ∧ t'.state.asked = t.state.asked ∧
          t'.state.workload.statistics.records = t.state.workload.statistics.records ∧
          ∃ report, t.state.workload.report = some report ∧
            t'.state.workload.report = some { report with memory := none })
        fun _ _ => False)
      fun _ _ => True := by
  have hrun := (s.tracking true).mirrors_untracked c j j'
  rw [← engine_untracked] at hrun
  refine ends_iff.2 ⟨fun tick t hr => ?_, fun _ _ _ => trivial⟩
  obtain ⟨-, ⟨report, hreport, -⟩, -⟩ := (Replay.ends_run_rests (j := j)).of_ok hr
  refine (hrun.of_ok hr).imp ?_ fun _ _ hfalse => hfalse
  rintro tick' t' ⟨ht, htick⟩
  rw [ht]
  refine ⟨htick, rfl, rfl, report, hreport, ?_⟩
  exact congrArg (Option.map Disguise.untracked.report) hreport

/-- The run that tracks memory reports its use, the other one reports the rest. -/
theorem tracking_passive_writers : ∃ t t' report,
    Replay.run ⟨((writers "a" "b").tracking true).engine { config := {} }, #[]⟩ = .ok 1000 t ∧
      Replay.run ⟨((writers "a" "b").tracking false).engine { config := {} }, #[]⟩ = .ok 1000 t' ∧
      t'.state.asked = t.state.asked ∧
      t'.state.workload.statistics.records = t.state.workload.statistics.records ∧
      t.state.workload.report = some report ∧ report.memory.isSome = true ∧
      t'.state.workload.report = some { report with memory := none } := by
  have hruns : Ends Replay.run ⟨((writers "a" "b").tracking true).engine { config := {} }, #[]⟩
      (fun tick t => tick = 1000 ∧
        (t.state.workload.report.map fun report => report.memory.isSome) = some true)
      fun _ _ => False := by decide +kernel
  obtain ⟨_, t, hrun, rfl, hmemory⟩ := hruns.exists_ok
  obtain ⟨_, t', hrun', rfl, hasked, hrecords, report, hreport, hreport'⟩ :=
    ((tracking_passive (writers "a" "b") {} #[] #[]).of_ok hrun).exists_ok
  rw [hreport] at hmemory
  exact ⟨t, t', report, hrun, hrun', hasked, hrecords, hreport, Option.some.inj hmemory, hreport'⟩

/-- Nothing is said of a run that memory tracking ends: without it this one ends well. -/
example : Ends Replay.run ⟨((writers "a" "a").tracking false).engine { config := {} }, #[]⟩
    (fun tick _ => tick = 1000) fun _ _ => False := by
  decide +kernel

end Setup

end TraceReplay
