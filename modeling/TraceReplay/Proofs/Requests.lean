/-
**What a run asks for does not depend on timing.**

What is asked of the kernel for a node, and what is recorded of its cost, is what the plan made before
the run comes to, at whatever moment the node is issued.  A run that has finished has issued every node
that is not skipped, once.  Two runs that have finished have therefore asked for the same, on whatever
kernels and in whatever order their requests came back.

Main definitions:

* `Work`, `Engine.works` — a request without its token or handle, and those of an engine;
* `Plan.work?`, `Plan.metrics?` — what a plan asks for, and what is recorded of its cost;
* `Faithful` — requests and records are those of the plans made before the run.

Main results:

* `Faithful.moves` — no move departs from the plans;
* `AtRest.mem_works_iff` — the requests of a run that has finished;
* `Run.same_work` — **runs that have finished have asked for the same and recorded the same**.
-/

import Mathlib.Data.List.Nodup
import TraceReplay.Kernel.Scripted
import TraceReplay.Proofs.Stall
import TraceReplay.Proofs.Termination

set_option relaxedAutoImplicit false
set_option autoImplicit false

namespace TraceReplay

open Relation

/-! ### Work -/

/-- A request without its token or handle. -/
inductive Work where
  | operation (operation : Operation)
  | gathering (gathering : Gathering)
  deriving DecidableEq, Repr

/-- What a request asks for. -/
def Issued.work : Issued → Work
  | .operation _ what => .operation what
  | .gathering _ what => .gathering what

/-- What an engine has asked for so far, with the nodes for which it did. -/
def Engine.works {κ : Type} (e : Engine κ) : List (NodeId × Work) :=
  e.asked.toList.map fun p => (p.1, p.2.work)

namespace Plan

variable (roofline : Option Roofline)

/-- The estimate behind a plan that goes by the roofline model. -/
def estimate? : Plan → Option Estimate
  | .roofline numOps ioSize => roofline.bind fun r => (r.estimate numOps ioSize).toOption
  | _ => none

/-- What a plan asks for, if it asks for something. -/
def work? (group : Option Group) (plan : Plan) : Option Work :=
  match plan with
  | .skip => none
  | .operation what => some (.operation what)
  | .roofline _ _ => (plan.estimate? roofline).map fun e => .operation (.timed e.elapsed)
  | .collective kind size involvedDims priority =>
      some (.gathering (.collective { kind, size, involvedDims, group, priority }))
  | .timedCollective duration => some (.gathering (.timed duration))

/-- What is recorded of the cost of a plan. -/
def metrics? (plan : Plan) : Option Metrics := (plan.estimate? roofline).map .ofEstimate

variable {roofline} {group : Option Group} {plan : Plan}

theorem Starts.work_eq {operation : Operation} {metrics : Option Metrics}
    (h : plan.Starts roofline operation metrics) (group : Option Group) :
    plan.work? roofline group = some (.operation operation) ∧ plan.metrics? roofline = metrics := by
  cases h with
  | operation operation => exact ⟨rfl, rfl⟩
  | roofline model costs =>
      subst model
      simp only [work?, metrics?, estimate?, Option.bind_some, costs]
      exact ⟨rfl, rfl⟩

theorem Gathers.work_eq {gathering : Gathering} (h : plan.Gathers group gathering)
    (roofline : Option Roofline) :
    plan.work? roofline group = some (.gathering gathering) ∧ plan.metrics? roofline = none := by
  cases h with
  | collective kind size involvedDims priority => exact ⟨rfl, rfl⟩
  | timed duration => exact ⟨rfl, rfl⟩

end Plan

namespace Setup

variable (s : Setup)

/-- What the plan of a node asks for. -/
def workOf (n : Node) : Option Work :=
  match s.workload.planOf n with
  | .ok plan => plan.work? s.config.roofline s.workload.group
  | .error _ => none

/-- What is recorded of the cost of the plan of a node. -/
def metricsOf (n : Node) : Option Metrics :=
  match s.workload.planOf n with
  | .ok plan => plan.metrics? s.config.roofline
  | .error _ => none

variable {s} {n : Node}

theorem workOf_eq {plan : Plan} (planned : s.workload.planOf n = .ok plan) :
    s.workOf n = plan.work? s.config.roofline s.workload.group := by
  rw [workOf, planned]

theorem metricsOf_eq {plan : Plan} (planned : s.workload.planOf n = .ok plan) :
    s.metricsOf n = plan.metrics? s.config.roofline := by
  rw [metricsOf, planned]

/-- A node that is skipped has no cost, -/
theorem metricsOf_of_skips (skips : s.workload.Skips n) : s.metricsOf n = none := by
  rcases skips with planned | ⟨e, failed, -⟩
  · rw [metricsOf_eq planned]
    rfl
  · rw [metricsOf, failed]

/-- and nothing is asked for it. -/
theorem workOf_of_skips (skips : s.workload.Skips n) : s.workOf n = none := by
  rcases skips with planned | ⟨e, failed, -⟩
  · rw [workOf_eq planned]
    rfl
  · rw [workOf, failed]

end Setup

/-! ### Faithful engines -/

/-- Requests and records are those of the plans made before the run. -/
structure Faithful {κ : Type} (s : Setup) (e : Engine κ) : Prop where
  asked : ∀ p ∈ e.works, ∃ n, s.graph.lookup p.1 = some n ∧ s.workOf n = some p.2
  recorded : ∀ id r n, e.workload.statistics.records.find? id = some r →
    s.graph.lookup id = some n → r.metrics = s.metricsOf n

variable {κ : Type} {s : Setup}

namespace Faithful

variable {e : Engine κ} {id : NodeId} {n : Node}

/-- Before the first call. -/
theorem initial (s : Setup) (k : κ) : Faithful s (s.engine k) := by
  obtain ⟨-, group, hw⟩ := s.created_iff
  refine ⟨fun p hp => absurd hp List.not_mem_nil, fun id r n hr => ?_⟩
  simp only [Setup.engine, hw] at hr
  cases hr

/-- One record has to be looked at when it changes. -/
theorem recorded_insert (h : Faithful s e) {r : Record} (hn : s.graph.lookup id = some n)
    (hr : r.metrics = s.metricsOf n) :
    ∀ id' r' n', (e.workload.statistics.records.insert id r).find? id' = some r' →
      s.graph.lookup id' = some n' → r'.metrics = s.metricsOf n' := by
  intro id' r' n' hr' hn'
  rcases SortedMap.eq_or_find?_of_insert hr' with ⟨rfl, rfl⟩ | hr'
  · cases hn.symm.trans hn'
    exact hr
  · exact h.recorded id' r' n' hr' hn'

/-- One request has to be looked at when it is made. -/
theorem asked_push (h : Faithful s e) {r : Issued} (hn : s.graph.lookup id = some n)
    (hr : s.workOf n = some r.work) :
    ∀ p ∈ (e.asked.push (id, r)).toList.map fun p => (p.1, p.2.work),
      ∃ n, s.graph.lookup p.1 = some n ∧ s.workOf n = some p.2 := by
  intro p hp
  rw [Array.toList_push, List.map_append, List.mem_append] at hp
  rcases hp with hp | hp
  · exact h.asked p hp
  · cases List.mem_singleton.1 hp
    exact ⟨n, hn, hr⟩

variable [Kernel κ] {m m' : Moment κ}

/-- **A drain issues nodes as they were planned before the run.** -/
theorem offer (hc : Coherent s m) (h : Faithful s m.toEngine) (offer : Offer m m') :
    Faithful s m'.toEngine := by
  cases offer with
  | block front full => exact ⟨h.asked, h.recorded⟩
  | skip front room skips freed =>
      obtain ⟨hn, hid, -⟩ := hc.front front
      rw [← hid] at hn
      have hskips := (hc.skips_iff _ _).1 skips
      exact ⟨h.asked, h.recorded_insert hn (Setup.metricsOf_of_skips hskips).symm⟩
  | start front room planned starts takes =>
      obtain ⟨hn, -⟩ := hc.front front
      rw [hc.planOf_eq] at planned
      rw [hc.config] at starts
      obtain ⟨hwork, hmetrics⟩ := starts.work_eq s.workload.group
      rw [← Setup.workOf_eq planned] at hwork
      rw [← Setup.metricsOf_eq planned] at hmetrics
      exact ⟨h.asked_push hn hwork, h.recorded_insert hn hmetrics.symm⟩
  | gather front room planned gathers gives registered =>
      obtain ⟨hn, -⟩ := hc.front front
      rw [hc.planOf_eq] at planned
      have hgroup : m.workload.group = s.workload.group := hc.group
      rw [hgroup] at gathers
      obtain ⟨hwork, hmetrics⟩ := gathers.work_eq s.config.roofline
      rw [← Setup.workOf_eq planned] at hwork
      rw [← Setup.metricsOf_eq planned] at hmetrics
      exact ⟨h.asked_push hn hwork, h.recorded_insert hn hmetrics.symm⟩

/-- Completions change ends only. -/
theorem close {event : Event} (hc : Coherent s m) (h : Faithful s m.toEngine)
    (closes : Closes event m m') : Faithful s m'.toEngine := by
  obtain ⟨arrives, found, r, memory, hr, -, -, rfl⟩ := closes
  obtain ⟨hn, hid, -⟩ := hc.arriving arrives found
  rw [← hid] at hn
  exact ⟨h.asked, h.recorded_insert hn (h.recorded _ r _ hr hn)⟩

/-- **No move departs from the plans.** -/
theorem move (hc : Coherent s m) (h : Faithful s m.toEngine) (move : Move m m') :
    Faithful s m'.toEngine := by
  cases move with
  | wake => exact ⟨h.asked, h.recorded⟩
  | offer hm => exact h.offer hc hm
  | leave queue => exact ⟨h.asked, h.recorded⟩
  | handBack hm => cases hm; exact ⟨h.asked, h.recorded⟩
  | close hm => exact h.close hc hm
  | drop hm => exact absurd hm hc.not_drops
  | free hm => cases hm; exact ⟨h.asked, h.recorded⟩
  | remove hm => cases hm; exact ⟨h.asked, h.recorded⟩
  | settle hm => cases hm <;> exact ⟨h.asked, h.recorded⟩

theorem moves (hc : Coherent s m) (h : Faithful s m.toEngine) (moves : ReflTransGen Move m m') :
    Faithful s m'.toEngine := by
  induction moves with
  | refl => exact h
  | tail hmoves hm ih => exact ih.move (hc.moves hmoves) hm

end Faithful

variable [Kernel κ] {calls : List Call} {e : Engine κ} {m : Moment κ}

/-- **Every run follows the plans made before it.** -/
theorem Run.faithful (run : Run s calls e) : Faithful s e := by
  induction run with
  | start k => exact .initial s k
  | @returns calls e k event j t run later conforms call ih =>
      obtain ⟨m, rfl, h⟩ := run.atRest
      obtain ⟨m', hmoves, ht⟩ := Engine.moves_of_ok (m := { m with kernel := k }) call
      rw [← ht]
      exact Faithful.moves (h.later later).coherent ⟨ih.asked, ih.recorded⟩ hmoves
  | @fails calls e k event j t x run later conforms call ih =>
      obtain ⟨m, rfl, h⟩ := run.atRest
      obtain ⟨-, m', halts, ht⟩ := Engine.halts_of_error (m := { m with kernel := k }) call
      have hlater := (h.later later).coherent
      rw [← ht]
      exact Faithful.moves hlater ⟨ih.asked, ih.recorded⟩ (halts.moves hlater).1

/-! ### Runs that have finished -/

/-- No two requests of a run are for one node. -/
theorem AtRest.nodup_works (h : AtRest s calls m) : m.works.Nodup := by
  refine List.Nodup.of_map Prod.fst (List.nodup_iff_count_le_one.2 fun id => ?_)
  have hrequested := h.coherent.custody.requested id
  calc ((m.works).map Prod.fst).count id = requestsFor m.asked id := by
        rw [Engine.works, List.map_map, List.count_eq_countP, List.countP_map]
        exact List.countP_congr fun p _ => by simp
    _ ≤ 1 := by
        rw [hrequested]
        split <;> omega

/-- All nodes have a record when a run has finished. -/
theorem AtRest.record_of_finished (h : AtRest s calls m) (finished : m.workload.isFinished = true)
    {n : Node} (hn : n ∈ s.trace) : ∃ r, m.workload.statistics.records.find? n.id = some r := by
  obtain ⟨-, done, -⟩ := h.finished finished
  have hdone : m.workload.adapter.hasRemainingWork m.workload.graph = false := by
    rw [h.coherent.adapter]
    exact done
  obtain ⟨r, finish, hr, -⟩ := Record.ended_iff.1 (h.coherent.ended_of_not_hasRemainingWork hdone hn)
  exact ⟨r, hr⟩

/-- **The requests of a run that has finished are those of the plans of its trace.** -/
theorem AtRest.mem_works_iff (h : AtRest s calls m) (faithful : Faithful s m.toEngine)
    (finished : m.workload.isFinished = true) (id : NodeId) (work : Work) :
    (id, work) ∈ m.works ↔ ∃ n, s.graph.lookup id = some n ∧ s.workOf n = some work := by
  refine ⟨faithful.asked _, ?_⟩
  rintro ⟨n, hn, hwork⟩
  obtain ⟨hmem, hid⟩ := (s.built.lookup_iff id n).1 hn
  obtain ⟨r, hr⟩ := h.record_of_finished finished hmem
  rw [hid] at hr
  -- the node is not skipped, so something was asked for it, and that was its work
  have hskips : ¬s.workload.Skips n := fun hskips => by
    rw [Setup.workOf_of_skips hskips] at hwork
    cases hwork
  have htype := h.asked_of_replayed hr ⟨h.not_stuck_of_record hr, n, hmem, hid, hskips⟩
  have hrequested := h.coherent.custody.requested id
  rw [Record.asked, hr, Option.any_some, decide_eq_true htype, if_pos rfl] at hrequested
  obtain ⟨⟨id', request⟩, hasked, heq⟩ :=
    List.countP_pos_iff.1 (Nat.lt_of_lt_of_eq Nat.one_pos hrequested.symm)
  cases of_decide_eq_true heq
  have hwritten : (id', request.work) ∈ m.works := List.mem_map.2 ⟨_, hasked, rfl⟩
  obtain ⟨n', hn', hwork'⟩ := faithful.asked _ hwritten
  cases hn.symm.trans hn'
  rwa [Option.some.inj (hwork.symm.trans hwork')]

/-- The type of a record is a matter of its node. -/
theorem AtRest.operatorType_eq {κ' : Type} [Kernel κ'] {calls' : List Call} {m' : Moment κ'}
    (h : AtRest s calls m) (h' : AtRest s calls' m') {id : NodeId} {n : Node} {r r' : Record}
    (hn : s.graph.lookup id = some n) (hr : m.workload.statistics.records.find? id = some r)
    (hr' : m'.workload.statistics.records.find? id = some r') : r.operatorType = r'.operatorType := by
  rcases h.coherent.skipped id r n hr hn with ⟨hskips, htype⟩ | ⟨hskips, htype⟩
  all_goals rcases h'.coherent.skipped id r' n hr' hn with ⟨hskips', htype'⟩ | ⟨hskips', htype'⟩
  · rw [htype, htype']
  · exact absurd hskips hskips'
  · exact absurd hskips' hskips
  · rw [htype, htype']

/-- **Runs that have finished have asked for the same and recorded the same.**  Whatever the kernels, in
whatever order and at whatever ticks they deliver: what has been asked for is the same for each node, and
all nodes have records that agree about their types and their roofline metrics. -/
theorem Run.same_work {κ' : Type} [Kernel κ'] {calls' : List Call} {e' : Engine κ'}
    (run : Run s calls e) (run' : Run s calls' e') (finished : e.workload.isFinished = true)
    (finished' : e'.workload.isFinished = true) :
    e.works.Perm e'.works ∧
    ∀ n ∈ s.trace, ∃ r r', e.workload.statistics.records.find? n.id = some r ∧
      e'.workload.statistics.records.find? n.id = some r' ∧
      r.operatorType = r'.operatorType ∧ r.metrics = r'.metrics := by
  have hfaithful := run.faithful
  have hfaithful' := run'.faithful
  obtain ⟨m, rfl, h⟩ := run.atRest
  obtain ⟨m', rfl, h'⟩ := run'.atRest
  refine ⟨(List.perm_ext_iff_of_nodup h.nodup_works h'.nodup_works).2 fun ⟨id, work⟩ => ?_,
    fun n hmem => ?_⟩
  · rw [h.mem_works_iff hfaithful finished, h'.mem_works_iff hfaithful' finished']
  · have hn := (s.built.lookup_iff n.id n).2 ⟨hmem, rfl⟩
    obtain ⟨r, hr⟩ := h.record_of_finished finished hmem
    obtain ⟨r', hr'⟩ := h'.record_of_finished finished' hmem
    refine ⟨r, r', hr, hr', h.operatorType_eq h' hn hr hr', ?_⟩
    rw [hfaithful.recorded n.id r n hr hn, hfaithful'.recorded n.id r' n hr' hn]

/-- A computation and a receive, with a load after the one and a computation after the other. -/
@[irreducible] def Setup.fork : Setup :=
  let task (id : NodeId) (kind : NodeKind) (dataDeps : List NodeId) (attributes : Attributes) : Node :=
    { id, name := "task", kind, dataDeps, ctrlDeps := [], attributes }
  .ofTrace {} [
    task 1 .compute [] { runtime := some 3 },
    task 2 .receive [] { commSrc := some 1, commSize := some 8 },
    task 3 .memLoad [1] { tensorLoc := some "remote", tensorSize := some 4 },
    task 4 .compute [2] { runtime := some 3, isCpuOp := some false }]

/-- In one run of the fork the computation comes back first and its child is issued first, in the other
the receive and its child; both runs have asked for the same. -/
theorem Run.same_work_fork : ∃ e e' : Engine Scripted,
    e.works.map Prod.fst = [1, 2, 3, 4] ∧ e'.works.map Prod.fst = [1, 2, 4, 3] ∧
    e.works.Perm e'.works ∧
    ∀ n ∈ Setup.fork.trace, ∃ r r', e.workload.statistics.records.find? n.id = some r ∧
      e'.workload.statistics.records.find? n.id = some r' ∧
      r.operatorType = r'.operatorType ∧ r.metrics = r'.metrics := by
  have hdrive : ((Setup.fork.drive ({} : Scripted) [(.nodeFinished ⟨3⟩, { now := 9 }),
        (.nodeFinished ⟨2⟩, { now := 9 }), (.packetReceived ⟨1⟩, { now := 7 }),
        (.nodeFinished ⟨0⟩, { now := 5 }), (.wake, {})]).map fun e =>
      (e.works.map Prod.fst, e.workload.isFinished)) = some ([1, 2, 3, 4], true) := by decide +kernel
  have hdrive' : ((Setup.fork.drive ({} : Scripted) [(.nodeFinished ⟨2⟩, { now := 4 }),
        (.nodeFinished ⟨3⟩, { now := 3 }), (.nodeFinished ⟨0⟩, { now := 2 }),
        (.packetReceived ⟨1⟩, { now := 1 }), (.wake, {})]).map fun e =>
      (e.works.map Prod.fst, e.workload.isFinished)) = some ([1, 2, 4, 3], true) := by decide +kernel
  obtain ⟨e, he, hworks⟩ := Option.map_eq_some_iff.1 hdrive
  obtain ⟨e', he', hworks'⟩ := Option.map_eq_some_iff.1 hdrive'
  obtain ⟨hworks, hfinished⟩ := Prod.mk.inj hworks
  obtain ⟨hworks', hfinished'⟩ := Prod.mk.inj hworks'
  exact ⟨e, e', hworks, hworks',
    Run.same_work (.of_drive he) (.of_drive he') hfinished hfinished'⟩

end TraceReplay
