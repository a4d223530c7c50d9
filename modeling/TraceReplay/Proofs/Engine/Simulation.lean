/-
**The engine makes the listed moves and no others.**

Each part of the engine is run symbolically here, once.  Every outcome of a call is one of those listed
in `TraceReplay.Proofs.Engine.Move`: where it returns, its moves lead from the state before to the state
after, and where it stops, its moves lead to the point at which it stopped.

Main definitions:

* `Engine.arrive`, `Engine.retire`, `Engine.turn` — the parts of a call.

Main results:

* `Engine.ends_issue` — what is done with a node whose resource has room;
* `Engine.ends_drain` — a drain offers nodes until the queue is empty, or stops at one of them; its fuel
  is always enough;
* `Engine.ends_call` — what an event does.
-/

import TraceReplay.Proofs.Action
import TraceReplay.Proofs.Engine.Move
import TraceReplay.Proofs.Graph.Readiness
import TraceReplay.Proofs.Plan

set_option relaxedAutoImplicit false
set_option autoImplicit false

namespace TraceReplay

open Relation
open TraceReplay.Action

/-- Plans are sound in every state. -/
theorem Workload.sound_planOf (w : Workload) (n : Node) :
    Plan.Sound w.config (w.adapter.tensorSizeOf w.graph) n n.nodeClass (w.planOf n) :=
  Plan.sound_ofNode w.config (w.adapter.tensorSizeOf w.graph) n n.nodeClass

namespace Engine

variable {κ : Type} {e : Engine κ} {j : Array Entry} {E : Stop → Logged (Engine κ) → Prop}

/-! ### Parts of the state -/

theorem ends_takeReady {Q : Option NodeId → Logged (Engine κ) → Prop} :
    Ends takeReady ⟨e, j⟩ Q E ↔
      match e.workload.graph.ready with
      | [] => Q none ⟨e, j⟩
      | id :: rest => Q (some id) ⟨{ e with workload := e.workload.withReady rest }, j⟩ := by
  simp only [takeReady, workloadOf, updateWorkload, ends_bind, ends_get, ends_pure, Graph.takeReady?]
  cases e.workload.graph.ready <;> rfl

theorem ends_lookup {Q : Node → Logged (Engine κ) → Prop} {id : NodeId} :
    Ends (lookup id) ⟨e, j⟩ Q E ↔
      match e.workload.graph.lookup id with
      | some n => Q n ⟨e, j⟩
      | none => E (.error (.unknownNode id)) ⟨e, j⟩ := by
  simp only [lookup, workloadOf, ends_bind, ends_get, ends_pure]
  cases e.workload.graph.lookup id <;> rfl

theorem ends_traceLine {Q : Unit → Logged (Engine κ) → Prop} {entry : Nat → Entry}
    (h : ∀ j, Q () ⟨e, j⟩) : Ends (traceLine entry) ⟨e, j⟩ Q E := by
  simp only [traceLine, workloadOf, ends_bind, ends_get, ends_pure]
  split
  · exact h _
  · exact h _

theorem ends_updateWorkload {Q : Unit → Logged (Engine κ) → Prop} {f : Workload → Workload} :
    Ends (updateWorkload f) ⟨e, j⟩ Q E ↔ Q () ⟨{ e with workload := f e.workload }, j⟩ := Iff.rfl

theorem ends_changeGraph {Q : Unit → Logged (Engine κ) → Prop} {f : Graph → Except Fault Graph} :
    Ends (changeGraph f) ⟨e, j⟩ Q E ↔
      match f e.workload.graph with
      | .ok graph => Q () ⟨{ e with workload := { e.workload with graph } }, j⟩
      | .error x => E (.fault x) ⟨e, j⟩ := by
  simp only [changeGraph, workloadOf, ends_bind, ends_get, ends_pure]
  cases f e.workload.graph <;> rfl

/-- Planning a node changes nothing but the journal; a lenient run skips a node that it forgives. -/
theorem ends_planOf {Q : Plan → Logged (Engine κ) → Prop} {n : Node}
    (ok : ∀ plan, e.workload.planOf n = .ok plan → Q plan ⟨e, j⟩)
    (forgiven : ∀ x j', e.workload.planOf n = .error (.error x) → e.workload.forgives x = true →
      Q .skip ⟨e, j'⟩)
    (bad : ∀ x, e.workload.planOf n = .error (.error x) → e.workload.forgives x = false →
      E (.error x) ⟨e, j⟩)
    (fault : ∀ f, e.workload.planOf n = .error (.fault f) → E (.fault f) ⟨e, j⟩) :
    Ends (planOf n) ⟨e, j⟩ Q E := by
  simp only [planOf, workloadOf, ends_bind, ends_get, ends_pure]
  split
  next plan h => exact ok plan h
  next x h =>
    split
    next hx => exact forgiven x _ h hx
    next hx => exact bad x h (Bool.eq_false_iff.2 hx)
  next f h => exact fault f h

theorem ends_occupy {Q : Unit → Logged (Engine κ) → Prop} {id : NodeId} {c : NodeClass}
    (room : e.workload.pool.hasRoom c = true)
    (h : ∀ j', Q () ⟨{ e with workload := { e.workload with pool := e.workload.pool.take c } }, j'⟩) :
    Ends (onPool (SlotPool.occupy id c)) ⟨e, j⟩ Q E := by
  rw [SlotPool.hasRoom] at room
  simp only [SlotPool.take] at h
  simp only [onPool, SlotPool.occupy, ends_on, ends_stopAs]
  cases hr : Resource.ofClass? c with
  | none =>
      simp only [hr] at h
      exact h j
  | some r =>
      simp only [hr, decide_eq_true_eq] at room h
      simp only [ends_bind, ends_get, ends_ite, ends_throw, ends_put, ends_note]
      refine ⟨fun full => ?_, fun _ => h _⟩
      omega

/-- The estimate of a node is added to the record just opened for it. -/
theorem recordEstimate_recordStart (s : Statistics) (id : NodeId) (c : NodeClass) (tick : Tick)
    (estimate : Estimate) :
    (s.recordStart id (.ofClass c) tick).recordEstimate id estimate =
      .ok (s.openRecord id c tick (some (.ofEstimate estimate))) := by
  simp only [Statistics.recordEstimate, Statistics.recordStart, Statistics.openRecord,
    SortedMap.find?_insert_self, SortedMap.insert_insert]

omit e j E in
/-- Closing the record of a node that is skipped. -/
theorem ends_recordEnd_skip {s : Statistics} {n : Node} {tick : Tick} {j : Array Entry}
    {Q : Unit → Logged Statistics → Prop} {E : Stop → Logged Statistics → Prop}
    (h : Q () ⟨s.skipRecord n.id tick, j⟩) :
    Ends (Statistics.recordEnd n tick) ⟨s.recordStart n.id .invalid tick, j⟩ Q E := by
  simp only [Statistics.recordEnd, Statistics.recordStart, ends_bind, ends_get,
    SortedMap.find?_insert_self, Nat.lt_irrefl, ↓reduceIte, ends_put, SortedMap.insert_insert, ne_eq,
    not_true_eq_false, ends_pure]
  exact h

variable [Kernel κ]

theorem ends_now {Q : Tick → Logged (Engine κ) → Prop} :
    Ends now ⟨e, j⟩ Q E ↔ Q (Kernel.now e.kernel) ⟨e, j⟩ := Iff.rfl

/-! ### Requests -/

theorem ends_request {Q : Unit → Logged (Engine κ) → Prop} {id : NodeId} {c : NodeClass}
    {operation : Operation}
    (ok : ∀ k j', Kernel.Takes e.kernel ⟨e.workload.inFlight.issued⟩ operation k →
      Q () ⟨{
        workload := { e.workload with
          inFlight := (e.workload.inFlight.insert ⟨id, c, operation.expected⟩).2 }
        kernel := k
        asked := e.asked.push (id, .operation ⟨e.workload.inFlight.issued⟩ operation) }, j'⟩)
    (fault : ∀ f t, Kernel.Faults e.kernel f → E (.fault f) t) :
    Ends (request id c operation) ⟨e, j⟩ Q E := by
  simp only [request, workloadOf, updateWorkload, onKernel, noteRequest, InFlight.insert, ends_bind,
    ends_get, ends_pure, ends_update, ends_on, ends_stopAs]
  refine ends_iff.2 ⟨fun _ t ht => ?_, fun f t ht => ?_⟩
  · exact ok t.state t.journal ⟨j, t, ht, rfl⟩
  · exact fault f _ (.inl ⟨_, _, j, t, ht⟩)

theorem ends_gather {Q : Unit → Logged (Engine κ) → Prop} {id : NodeId} {c : NodeClass}
    {gathering : Gathering}
    (ok : ∀ handle k gatherings j', Kernel.Gives e.kernel gathering handle k →
      e.workload.gatherings.register handle id c = .ok gatherings →
      Q () ⟨{
        workload := { e.workload with gatherings }
        kernel := k
        asked := e.asked.push (id, .gathering handle gathering) }, j'⟩)
    (taken : ∀ handle k j', Kernel.Gives e.kernel gathering handle k →
      e.workload.gatherings.contains handle = true →
      E (.fault (.handleTaken handle id)) ⟨{ e with
        kernel := k
        asked := e.asked.push (id, .gathering handle gathering) }, j'⟩)
    (fault : ∀ f t, Kernel.Faults e.kernel f → E (.fault f) t) :
    Ends (gather id c gathering) ⟨e, j⟩ Q E := by
  simp only [gather, workloadOf, updateWorkload, onKernel, noteRequest, ends_bind, ends_get,
    ends_pure, ends_update, ends_on, ends_stopAs]
  refine ends_iff.2 ⟨fun handle t ht => ?_, fun f t ht => ?_⟩
  · have gives : Kernel.Gives e.kernel gathering handle t.state := ⟨j, t, ht, rfl⟩
    cases hr : e.workload.gatherings.register handle id c with
    | ok gatherings => exact ok handle t.state gatherings t.journal gives hr
    | error f =>
        rw [Gatherings.register] at hr
        split at hr
        next h =>
          cases hr
          exact taken handle t.state t.journal gives h
        next => cases hr
  · exact fault f _ (.inr ⟨_, j, t, ht⟩)

/-! ### Issuing -/

/-- What is asked of the kernel for a node whose plan is not to skip it. -/
theorem ends_dispatch {m : Moment κ} {id : NodeId} {n : Node} {rest : List NodeId} {plan : Plan}
    (front : m.Front id n rest) (room : m.workload.pool.hasRoom n.nodeClass = true)
    (planned : (m.workload.withReady rest).planOf n = .ok plan) (hskip : plan ≠ .skip) :
    Ends (dispatch id n.nodeClass plan)
      ⟨{ m.toEngine with
        workload := (m.workload.withReady rest).opened id n.nodeClass (Kernel.now m.kernel) none }, j⟩
      (fun _ t => ∃ m', Offer m m' ∧ m'.aside = m.aside ∧ m'.toEngine = t.state)
      fun stop t => ∃ m', Refuses m stop m' ∧ m'.toEngine = t.state := by
  have fault : ∀ f (t : Logged (Engine κ)), Kernel.Faults m.kernel f →
      ∃ m', Refuses m (.fault f) m' ∧ m'.toEngine = t.state := fun f t h =>
    ⟨{ m with toEngine := t.state }, .kernelFault h, rfl⟩
  have gathers : ∀ gathering, plan.Gathers m.workload.group gathering →
      Ends (gather id n.nodeClass gathering)
        ⟨{ m.toEngine with
          workload := (m.workload.withReady rest).opened id n.nodeClass (Kernel.now m.kernel) none },
          j⟩
        (fun _ t => ∃ m', Offer m m' ∧ m'.aside = m.aside ∧ m'.toEngine = t.state)
        fun stop t => ∃ m', Refuses m stop m' ∧ m'.toEngine = t.state := by
    intro gathering hg
    refine ends_gather ?_ ?_ fault
    · intro handle k gatherings j' gives registered
      exact ⟨_, .gather front room planned hg gives registered, rfl, rfl⟩
    · intro handle k j' gives taken
      exact ⟨{ m with toEngine := _ }, .handleTaken gives taken rfl, rfl⟩
  cases plan with
  | skip => exact absurd rfl hskip
  | operation operation =>
      refine ends_request ?_ fault
      intro k j' takes
      exact ⟨_, .start front room planned (.operation operation) takes, rfl, rfl⟩
  | roofline numOps ioSize =>
      have sound := (m.workload.withReady rest).sound_planOf n
      rw [planned] at sound
      -- a plan for the roofline model is made only if there is one, and it can be applied
      obtain ⟨hr, hops, hio⟩ := sound.2 numOps ioSize rfl
      obtain ⟨roofline, model⟩ := Option.isSome_iff_exists.1 hr
      obtain ⟨estimate, costs⟩ : ∃ estimate, roofline.estimate numOps ioSize = .ok estimate :=
        ⟨_, if_neg (not_or.2 ⟨hops, hio⟩)⟩
      have recorded := recordEstimate_recordStart m.workload.statistics id n.nodeClass
        (Kernel.now m.kernel) estimate
      replace model : m.workload.config.roofline = some roofline := model
      replace recorded : ((m.workload.withReady rest).opened id n.nodeClass (Kernel.now m.kernel)
        none).statistics.recordEstimate id estimate = _ := recorded
      have config : ((m.workload.withReady rest).opened id n.nodeClass (Kernel.now m.kernel)
        none).config = m.workload.config := rfl
      simp only [dispatch, requestEstimated, workloadOf, updateWorkload, ends_bind, ends_get,
        ends_pure, config, model, costs, recorded, ends_lift_orFault_ok, ends_update]
      refine ends_request ?_ fault
      intro k j' takes
      exact ⟨_, .start front room planned (.roofline model costs) takes, rfl, rfl⟩
  | collective kind size involvedDims priority =>
      exact gathers _ (.collective kind size involvedDims priority)
  | timedCollective duration => exact gathers _ (.timed duration)

/-- **What is done with a node whose resource has room.** -/
theorem ends_issue {m : Moment κ} {id : NodeId} {n : Node} {rest : List NodeId}
    (front : m.Front id n rest) (room : m.workload.pool.hasRoom n.nodeClass = true) :
    Ends (issue id) ⟨{ m.toEngine with workload := m.workload.withReady rest }, j⟩
      (fun _ t => ∃ m', Offer m m' ∧ m'.aside = m.aside ∧ m'.toEngine = t.state)
      fun stop t => ∃ m', Refuses m stop m' ∧ m'.toEngine = t.state := by
  have found : (m.workload.withReady rest).graph.lookup id = some n := front.found
  have skips (h : (m.workload.withReady rest).Skips n) (j : Array Entry) :
      Ends (skip n (Kernel.now m.kernel))
        ⟨{ m.toEngine with workload := m.workload.withReady rest }, j⟩
        (fun _ t => ∃ m', Offer m m' ∧ m'.aside = m.aside ∧ m'.toEngine = t.state)
        fun stop t => ∃ m', Refuses m stop m' ∧ m'.toEngine = t.state := by
    simp only [skip, ends_bind, ends_updateWorkload, onStatistics, ends_on, ends_changeGraph]
    refine ends_recordEnd_skip ?_
    cases freed : (m.workload.withReady rest).graph.freeDependents n.id with
    | ok g =>
        exact ⟨_, .skip front room h freed, rfl, rfl⟩
    | error f =>
        exact ⟨{ m with toEngine := _ }, .freeFault front freed, rfl⟩
  simp only [issue, ends_bind, ends_lookup, found]
  -- planned, forgiven, not forgiven, and a sum that leaves the range
  refine ends_planOf ?_ ?_ ?_ ?_
  · intro plan planned
    simp only [ends_now]
    refine ends_traceLine fun j => ?_
    rw [ends_ite]
    refine ⟨?_, fun hskip => ?_⟩
    · rintro rfl
      exact skips (.inl planned) j
    · simp only [ends_bind]
      refine ends_occupy room fun j => ?_
      simp only [ends_updateWorkload]
      exact ends_dispatch front room planned hskip
  · intro x j' bad forgiven
    simp only [ends_now]
    refine ends_traceLine fun j => ?_
    simp only [↓reduceIte]
    exact skips (.inr ⟨x, bad, forgiven⟩) j
  · intro x bad unforgiven
    exact ⟨_, .unplanned front bad unforgiven, rfl⟩
  · intro f bad
    exact ⟨{ m with toEngine := _ }, .planFault front bad, rfl⟩

/-! ### Drains -/

omit [Kernel κ] in
theorem foldl_pushBack (ids : List NodeId) : ∀ g : Graph,
    ids.foldl Graph.pushBack g = { g with ready := g.ready ++ ids } := by
  induction ids with
  | nil => intro g; simp
  | cons id ids ih => intro g; simp [ih, Graph.pushBack]

omit [Kernel κ] in
theorem work_withReady {m : Moment κ} {id : NodeId} {rest : List NodeId}
    (queue : m.workload.graph.ready = id :: rest) :
    (m.workload.withReady rest).graph.work + 1 = m.workload.graph.work := by
  simp only [Graph.work, Workload.withReady, queue, List.length_cons]
  omega

/-- Every offer takes one node that was queued or waiting. -/
theorem work_offer {m m' : Moment κ} (h : Offer m m') :
    m'.workload.graph.work + 1 = m.workload.graph.work := by
  cases h with
  | block front => exact work_withReady front.queue
  | skip front room skips freed =>
      rw [← work_withReady front.queue, ← Graph.work_freeDependents freed]
      show (Graph.remove _ _).work + 1 = _
      rw [Graph.work_remove]
  | start front => exact work_withReady front.queue
  | gather front => exact work_withReady front.queue

/-- A drain with enough fuel. -/
theorem ends_drainFrom {fuel : Nat} : ∀ {m : Moment κ} {before blocked : List NodeId}
    {j : Array Entry}, m.workload.graph.work < fuel → m.aside = before ++ blocked →
      Ends (drainFrom fuel blocked) ⟨m.toEngine, j⟩
        (fun _ t => ∃ m₁ held, ReflTransGen Offer m m₁ ∧ m₁.workload.graph.ready = [] ∧
          m₁.aside = before ++ held ∧
          t.state = { m₁.toEngine with workload := m₁.workload.withReady held })
        fun stop t => ∃ m₁ m', ReflTransGen Offer m m₁ ∧ Refuses m₁ stop m' ∧
          m'.toEngine = t.state := by
  induction fuel with
  | zero => intro m before blocked j hfuel; omega
  | succ fuel ih =>
      intro m before blocked j hfuel haside
      -- every offer uses up work, so the fuel outlasts the nodes in the queue
      have onward {m' : Moment κ} (h : Offer m m') {blocked' : List NodeId}
          (haside' : m'.aside = before ++ blocked') (t : Logged (Engine κ))
          (ht : m'.toEngine = t.state) :
          Ends (drainFrom fuel blocked') t
            (fun _ t => ∃ m₁ held, ReflTransGen Offer m m₁ ∧ m₁.workload.graph.ready = [] ∧
              m₁.aside = before ++ held ∧
              t.state = { m₁.toEngine with workload := m₁.workload.withReady held })
            fun stop t => ∃ m₁ m', ReflTransGen Offer m m₁ ∧ Refuses m₁ stop m' ∧
              m'.toEngine = t.state := by
        have hwork := work_offer h
        rw [show t = ⟨m'.toEngine, t.journal⟩ by rw [ht]]
        refine (ih (by omega) haside').imp ?_ ?_
        · rintro _ t ⟨m₁, held, hoffers, hrest⟩
          exact ⟨m₁, held, .head h hoffers, hrest⟩
        · rintro stop t ⟨m₁, m', hoffers, hrest⟩
          exact ⟨m₁, m', .head h hoffers, hrest⟩
      simp only [drainFrom, ends_bind, ends_takeReady]
      cases hready : m.workload.graph.ready with
      | nil =>
          simp only [handBack, ends_updateWorkload, foldl_pushBack, hready, List.nil_append]
          exact ⟨m, blocked, .refl, hready, haside, rfl⟩
      | cons id rest =>
          simp only [ends_lookup]
          cases hfound : m.workload.graph.lookup id with
          | none =>
              simp only [Workload.withReady, Graph.lookup] at hfound ⊢
              simp only [hfound]
              exact ⟨m, { m with toEngine := _ }, .refl, .unknown hready hfound, rfl⟩
          | some n =>
              have front : m.Front id n rest := ⟨hready, hfound⟩
              have found : (m.workload.withReady rest).graph.lookup id = some n := hfound
              simp only [found, onPool, SlotPool.check, ends_on, ends_stopAs, ends_bind, ends_get,
                ends_note, ends_pure, ends_ite]
              refine ⟨fun room => ?_, fun full => ?_⟩
              · refine (ends_issue front room).imp ?_ ?_
                · rintro _ t ⟨m', hoffer, haside', ht⟩
                  exact onward hoffer (haside'.trans haside) t ht
                · rintro stop t ⟨m', hrefuses, ht⟩
                  exact ⟨m, m', .refl, hrefuses, ht⟩
              · refine onward (.block front (Bool.eq_false_iff.2 full)) ?_ _ rfl
                rw [← List.append_assoc, haside]

/-- **A drain offers nodes until the queue is empty**, or stops at one of them. -/
theorem ends_drain {m : Moment κ} :
    Ends drain ⟨m.toEngine, j⟩ (fun _ t => ∃ m', Drains m m' ∧ m'.toEngine = t.state)
      fun stop t => ∃ m₁ m', ReflTransGen Offer m m₁ ∧ Refuses m₁ stop m' ∧
        m'.toEngine = t.state := by
  simp only [drain, workloadOf, ends_bind, ends_get, ends_pure]
  refine (ends_drainFrom (Nat.lt_succ_self _) (List.append_nil _).symm).imp ?_ fun _ _ h => h
  rintro _ t ⟨m₁, held, hoffers, hready, haside, ht⟩
  exact ⟨_, ⟨m₁, held, hoffers, hready, haside, rfl⟩, ht.symm⟩

/-! ### Completions -/

omit [Kernel κ] e j E in
/-- Closing a record fails only if there is none or it starts later, or over tensor traffic. -/
theorem ends_recordEnd {s : Statistics} {n : Node} {tick : Tick} {j : Array Entry}
    {Q : Unit → Logged Statistics → Prop} {E : Stop → Logged Statistics → Prop}
    (ok : ∀ s' j', s.Closed n tick s' → Q () ⟨s', j'⟩)
    (bad : ∀ f t, (∀ r, s.records.find? n.id = some r → tick < r.start) → E (.fault f) t)
    (traffic : ∀ x s' j', s.memory ≠ none → s.Closed n tick s' → x.isTraffic = true →
      E (.error x) ⟨s', j'⟩)
    (untracked : ∀ f t tracker, s.memory = some tracker → tracker.opened.find? n.id = none →
      E (.fault f) t) :
    Ends (Statistics.recordEnd n tick) ⟨s, j⟩ Q E := by
  simp only [Statistics.recordEnd, ends_bind, ends_get]
  cases hr : s.records.find? n.id with
  | none => exact bad _ _ (by simp [hr])
  | some r =>
      simp only [ends_ite, ends_throw, ends_put, ends_pure, ends_bind]
      refine ⟨fun early => ?_, fun hstart => ?_⟩
      -- there is one record, and it starts later
      · refine bad _ _ fun r' hr' => ?_
        rw [hr] at hr'
        cases hr'
        exact early
      · have closed (memory : Option Tracker) (h : Statistics.Spares n.id s.memory memory) :
            s.Closed n tick
              { s with records := s.records.insert n.id { r with finish := some tick }, memory } :=
          ⟨r, memory, hr, Nat.le_of_not_lt hstart, h, rfl⟩
        refine ⟨fun _ => ?_, fun _ => ok _ _ (closed _ (Statistics.spares_refl n.id s.memory))⟩
        simp only [Statistics.onMemory, ends_bind, ends_get]
        cases hm : s.memory with
        | none =>
            simp only [ends_pure]
            exact ok _ _ (closed none (by rw [hm]; rfl))
        | some tracker =>
            simp only [ends_on]
            have closed' (tracker' : Tracker) (h : tracker.Spares n.id tracker') :=
              closed (some tracker') (by rw [hm]; exact ⟨tracker', rfl, h⟩)
            refine Tracker.ends_recordEnd.imp (fun _ t spares => ok _ _ (closed' _ spares)) ?_
            rintro stop t (⟨hopen, f, rfl⟩ | ⟨spares, x, rfl, hx⟩)
            · exact untracked f _ tracker hm hopen
            · exact traffic x _ _ (by simp [hm]) (closed' _ spares) hx

omit [Kernel κ] in
theorem ends_release {Q : Unit → Logged (Engine κ) → Prop} {id : NodeId} {c : NodeClass}
    (ok : ∀ j', (∀ r, Resource.ofClass? c = some r → e.workload.pool.taken.get r ≠ 0) →
      Q () ⟨{ e with workload := { e.workload with pool := e.workload.pool.giveBack c } }, j'⟩)
    (bad : ∀ f t r, Resource.ofClass? c = some r → e.workload.pool.taken.get r = 0 → E (.fault f) t) :
    Ends (onPool (SlotPool.release id c)) ⟨e, j⟩ Q E := by
  simp only [SlotPool.giveBack] at ok
  simp only [onPool, SlotPool.release, ends_on, ends_stopAs]
  cases hr : Resource.ofClass? c with
  | none =>
      simp only [hr] at ok
      exact ok j (by simp)
  | some r =>
      simp only [hr] at ok
      simp only [ends_bind, ends_get, ends_ite, ends_throw, ends_put, ends_note]
      refine ⟨fun idle => bad _ _ r hr idle, fun taken => ok _ ?_⟩
      rintro r' ⟨⟩
      exact taken

/-- What is done with a node whose operation came back before work is looked for: its record is closed,
its slot is given back, its children are told. -/
def retire (id : NodeId) (c : NodeClass) : Act κ Unit := do
  let tick ← now
  let n ← lookup id
  traceLine fun sysId => .callback sysId tick n.label
  recordEnd n tick
  onPool (SlotPool.release id c)
  changeGraph fun g => g.freeDependents id

omit e j E in
/-- Then work is looked for, and last the node is removed. -/
theorem finishNode_eq (id : NodeId) (c : NodeClass) : (finishNode id c : Act κ Unit) = (do
    retire id c
    drain
    changeGraph fun g => .ok (g.remove id)) := by
  simp only [finishNode, retire, bind_assoc]

/-- The slot of a closed node is given back, and its children are told. -/
theorem ends_free {event : Event} {m m₁ : Moment κ} {id : NodeId} {c : NodeClass}
    {rest : List (NodeId × NodeClass)} (closes : Closes event m m₁)
    (closed : m₁.unfreed = (id, c) :: rest) :
    Ends (do
        onPool (SlotPool.release id c)
        changeGraph fun g => g.freeDependents id) ⟨m₁.toEngine, j⟩
      (fun _ t => ∃ m₁ m₂ rest, Closes event m m₁ ∧ Frees m₁ m₂ ∧ m₂.lingering = id :: rest ∧
        m₂.toEngine = t.state)
      fun stop t => ∃ m', Halts event m stop m' ∧ m'.toEngine = t.state := by
  simp only [ends_bind]
  refine ends_release (fun j holds => ?_) ?_
  · simp only [ends_changeGraph]
    cases freed : m₁.workload.graph.freeDependents id with
    | error f => exact ⟨{ m with toEngine := _ }, .freeFault closes closed freed, rfl⟩
    | ok g => exact ⟨m₁, _, _, closes, .intro closed holds freed, rfl, rfl⟩
  · intro f t r hr idle
    exact ⟨{ m with toEngine := _ }, .release closes closed hr idle, rfl⟩

omit e j E in
/-- What is done with a node that an event brings back, before work is looked for. -/
theorem ends_retire {event : Event} {m : Moment κ} {id : NodeId} {c : NodeClass} {w : Workload}
    {j : Array Entry} (arrives : Arrives m.workload event id c w) :
    Ends (retire id c) ⟨{ m.toEngine with workload := w }, j⟩
      (fun _ t => ∃ m₁ m₂ rest, Closes event m m₁ ∧ Frees m₁ m₂ ∧ m₂.lingering = id :: rest ∧
        m₂.toEngine = t.state)
      fun stop t => ∃ m', Halts event m stop m' ∧ m'.toEngine = t.state := by
  obtain ⟨hgraph, hstatistics, hconfig⟩ := arrives.keeps
  simp only [retire, ends_bind, ends_now, ends_lookup, hgraph]
  cases found : m.workload.graph.lookup id with
  | none => exact ⟨{ m with toEngine := _ }, .unknown arrives found, rfl⟩
  | some n =>
      have freeing (s : Statistics) (j : Array Entry)
          (closed : m.workload.statistics.Closed n (Kernel.now m.kernel) s) :=
        ends_free (j := j) (.intro arrives found closed) rfl
      dsimp only
      refine ends_traceLine fun j => ?_
      simp only [recordEnd, ends_bind, ends_outcome, onStatistics, ends_on, hstatistics]
      refine ends_recordEnd ?_ ?_ ?_ ?_
      · intro s j closed
        simpa only [ends_pure, ends_bind] using freeing s j closed
      · intro f t bad
        exact ⟨{ m with toEngine := _ }, .record arrives found bad, rfl⟩
      · intro x s j tracked closed kind
        simp only [workloadOf, ends_bind, ends_get, ends_pure, ends_ite, ends_note]
        refine ⟨fun _ => ?_, fun unforgiven => ?_⟩
        · simpa only [ends_bind] using freeing s _ closed
        · rw [Workload.forgives, hconfig] at unforgiven
          exact ⟨_, .traffic (.intro arrives found closed) tracked kind
            (Bool.eq_false_iff.2 unforgiven), rfl⟩
      · intro f t tracker tracked bad
        exact ⟨{ m with toEngine := _ }, .trafficFault arrives found tracked bad, rfl⟩

/-- What an event brings back: a node, unless the event is a wake or the node has other handles out. -/
def arrive (event : Event) : Act κ (Option (NodeId × NodeClass)) :=
  match event with
  | .wake => return none
  | .collectiveFinished handle => onGatherings (Gatherings.complete handle)
  | .nodeFinished token | .packetSent token | .packetReceived token => do
      let w ← workloadOf
      let (context, inFlight) ← Action.lift (orFault (w.inFlight.take token event))
      updateWorkload fun w => { w with inFlight }
      return some (context.node, context.nodeClass)

/-- What is done with an event in a run that has not ended. -/
def turn (event : Event) : Act κ Unit :=
  match event with
  | .wake => drain
  | _ => do
      match ← arrive event with
      | none => return
      | some (id, c) => finishNode id c

omit e j E in
/-- An event that is not a wake completes the node that it brings back. -/
theorem turn_eq {event : Event} (hwake : event ≠ .wake) : (turn event : Act κ Unit) = (do
    match ← arrive event with
    | none => return
    | some (id, c) => finishNode id c) := by
  cases event <;> first | exact absurd rfl hwake | rfl

/-- A call is that, and the check whether the run has ended. -/
theorem call_eq (event : Event) : (call event : Act κ Unit) = (do
    if (← workloadOf).isFinished then return
    turn event
    checkTermination) := by
  cases event with
  | collectiveFinished handle => rfl
  | _ => simp only [call, turn, arrive, completeToken, bind_assoc, pure_bind]

/-- An event of the kind expected is the one that brings back the token. -/
theorem eq_event_of_admits {expected : Expected} {event : Event} {token : Token}
    (brings : event.token? = some token) (h : expected.admits event = true) :
    event = expected.event token := by
  cases event with
  | wake => cases brings
  | collectiveFinished => cases brings
  | nodeFinished t => cases brings; cases expected <;> first | rfl | cases h
  | packetSent t => cases brings; cases expected <;> first | rfl | cases h
  | packetReceived t => cases brings; cases expected <;> first | rfl | cases h

/-- An event that is not for the last handle of a node changes nothing else. -/
theorem ends_arrive {event : Event} {m : Moment κ} (hwake : event ≠ .wake) :
    Ends (arrive event) ⟨m.toEngine, j⟩
      (fun back t =>
        match back with
        | none => ∃ m', Drops event m m' ∧ m'.toEngine = t.state
        | some (id, c) => ∃ w, Arrives m.workload event id c w ∧
            t.state = { m.toEngine with workload := w })
      fun stop t => ∃ m', Halts event m stop m' ∧ m'.toEngine = t.state := by
  have token (token : Token) (brings : event.token? = some token) :
      Ends (do
          let w ← workloadOf
          let (context, inFlight) ← Action.lift (orFault (w.inFlight.take token event))
          updateWorkload fun w => { w with inFlight }
          return some (context.node, context.nodeClass)) ⟨m.toEngine, j⟩
        (fun back t =>
          match back with
          | none => ∃ m', Drops event m m' ∧ m'.toEngine = t.state
          | some (id, c) => ∃ w, Arrives m.workload event id c w ∧
              t.state = { m.toEngine with workload := w })
        fun stop t => ∃ m', Halts event m stop m' ∧ m'.toEngine = t.state := by
    simp only [workloadOf, ends_bind, ends_get, ends_pure]
    cases taken : m.workload.inFlight.take token event with
    | error f => exact ⟨{ m with toEngine := _ }, .token brings taken, rfl⟩
    | ok back =>
        obtain ⟨context, inFlight⟩ := back
        rw [InFlight.take] at taken
        split at taken
        next => cases taken
        next out =>
          split at taken
          next admits =>
            cases taken
            have arrives := Arrives.token out
            rw [← eq_event_of_admits brings admits] at arrives
            exact ⟨_, arrives, rfl⟩
          next => cases taken
  cases event with
  | wake => exact absurd rfl hwake
  | nodeFinished t => exact token t rfl
  | packetSent t => exact token t rfl
  | packetReceived t => exact token t rfl
  | collectiveFinished handle =>
      simp only [arrive, onGatherings, Gatherings.complete, ends_bind, ends_on, ends_stopAs, ends_get]
      cases out : m.workload.gatherings.handles.find? handle.index with
      | none => exact ⟨m, .handle rfl (.inl out), rfl⟩
      | some id =>
          dsimp only
          cases houtstanding : m.workload.gatherings.outstanding.find? id with
          | none => exact ⟨m, .handle rfl (.inr ⟨id, out, by simp [houtstanding]⟩), rfl⟩
          | some entry =>
              obtain ⟨c, k⟩ := entry
              cases k with
              | zero => exact ⟨m, .handle rfl (.inr ⟨id, out, by simp [houtstanding]⟩), rfl⟩
              | succ k =>
                  cases k with
                  | zero => exact ⟨_, .handle out houtstanding, rfl⟩
                  | succ k => exact ⟨_, .intro rfl out houtstanding, rfl⟩

/-- **What is done with an event** in a run that has not ended. -/
theorem ends_turn {event : Event} {m : Moment κ} : Ends (turn event) ⟨m.toEngine, j⟩
    (fun _ t => ∃ m', Turn event m m' ∧ m'.toEngine = t.state)
    fun stop t => ∃ m', Halts event m stop m' ∧ m'.toEngine = t.state := by
  by_cases hwake : event = .wake
  · subst hwake
    refine Ends.imp (ends_drain (m := { m with delivered := .wake :: m.delivered })) ?_ ?_
    · rintro _ t ⟨m₁, drains, ht⟩
      exact ⟨m₁, .wake drains, ht⟩
    · rintro stop t ⟨m₁, m', offers, refuses, ht⟩
      exact ⟨m', .wake rfl offers refuses, ht⟩
  · rw [turn_eq hwake, ends_bind]
    refine (ends_arrive hwake).imp ?_ fun _ _ halts => halts
    rintro (_ | ⟨id, c⟩) t
    · rintro ⟨m', drops, ht⟩
      exact ⟨m', .drop drops, ht⟩
    · rintro ⟨w, arrives, ht⟩
      rw [show t = ⟨{ m.toEngine with workload := w }, t.journal⟩ by rw [← ht]]
      simp only [finishNode_eq, ends_bind]
      refine (ends_retire arrives).imp ?_ fun _ _ halts => halts
      rintro _ t ⟨m₁, m₂, rest, closes, frees, told, ht⟩
      rw [show t = ⟨m₂.toEngine, t.journal⟩ by rw [ht]]
      refine ends_drain.imp ?_ ?_
      · rintro _ t ⟨m₃, drains, ht⟩
        refine ⟨_, .complete closes frees drains (.intro (drains.keeps.1.lingering.trans told)), ?_⟩
        simp only [← ht]
      · rintro stop t ⟨m₃, m', offers, refuses, ht⟩
        exact ⟨m', .drain closes frees offers refuses, ht⟩

/-! ### Calls -/

omit [Kernel κ] e j E in
/-- Summing up changes nothing but the tensor traffic, and leaves a report. -/
theorem ends_summarize (s : Statistics) (j : Array Entry) :
    Ends Statistics.summarize ⟨s, j⟩ (fun _ t => ∃ memory report,
      (s.memory = none → memory = none) ∧ t.state = { s with memory, report := some report })
      fun stop _ => ∃ t, Statistics.summarize ⟨s, j⟩ = .error stop t := by
  refine ends_iff.2 ⟨fun r t hr => ?_, fun stop t ht => ⟨t, ht⟩⟩
  suffices h : Ends Statistics.summarize ⟨s, j⟩ (fun _ t => ∃ memory report,
      (s.memory = none → memory = none) ∧ t.state = { s with memory, report := some report })
      fun _ _ => True from
    h.of_ok hr
  simp only [Statistics.summarize, ends_bind, ends_get, ends_note]
  cases s.unfinished? with
  | some r => trivial
  | none =>
      simp only [ends_bind]
      cases s.typeTimes with
      | error f => trivial
      | ok typeTimes =>
          cases s.utilizations with
          | error f => trivial
          | ok utilizations =>
              cases hbuilt : s.memory.mapM Statistics.buildTimeline with
              | error f => trivial
              | ok built =>
                  refine ⟨built.map (·.1), _, fun hm => ?_, rfl⟩
                  rw [hm] at hbuilt
                  cases hbuilt
                  rfl

omit [Kernel κ] e j E in
/-- The only error in summing up is that a node has not ended. -/
theorem unfinished_of_summarize {s : Statistics} {j : Array Entry} {x : ReplayError}
    {t : Logged Statistics} (h : Statistics.summarize ⟨s, j⟩ = .error (.error x) t) :
    s.unfinished? ≠ none := by
  intro hnone
  suffices hs : Ends Statistics.summarize ⟨s, j⟩ (fun _ _ => True)
      fun stop _ => ∀ x, stop ≠ .error x from hs.of_error h x rfl
  simp only [Statistics.summarize, ends_bind, ends_get, ends_note, hnone]
  cases s.typeTimes with
  | error f => rintro x ⟨⟩
  | ok typeTimes =>
      cases s.utilizations with
      | error f => rintro x ⟨⟩
      | ok utilizations =>
          cases s.memory.mapM Statistics.buildTimeline with
          | error f => rintro x ⟨⟩
          | ok built => trivial

/-- The check whether the run has ended, after what an event does. -/
theorem ends_checkTermination {event : Event} {m m₁ : Moment κ} (turn : Turn event m m₁) :
    Ends checkTermination ⟨m₁.toEngine, j⟩
      (fun _ t => ∃ m₂, Settles m₁ m₂ ∧ m₂.toEngine = t.state)
      fun stop t => ∃ m', Halts event m stop m' ∧ m'.toEngine = t.state := by
  simp only [checkTermination, workloadOf, ends_bind, ends_get, ends_pure, ends_ite]
  refine ⟨fun busy => ⟨m₁, .goOn busy, rfl⟩, fun idle => ?_⟩
  simp only [ends_now, ends_updateWorkload, ends_note, onStatistics, ends_on]
  simp only [Bool.or_eq_true, Bool.not_eq_true', not_or, Bool.not_eq_true, Bool.not_eq_false] at idle
  refine Ends.imp (ends_summarize _ _) ?_ ?_
  · rintro _ t ⟨memory, report, untracked, ht⟩
    simp only [Statistics.noteReport, ends_bind, ends_get]
    refine ends_forM_note _ fun j => ?_
    exact ⟨_, .finish idle.1 idle.2 untracked, by rw [ht]⟩
  · rintro stop t ⟨t', bad⟩
    exact ⟨{ m with toEngine := _ }, .summary turn idle.1 idle.2 bad, rfl⟩

/-- **What an event does in a run that has not ended.** -/
theorem ends_call {event : Event} {m : Moment κ} (h : m.workload.isFinished = false) :
    Ends (call event) ⟨m.toEngine, j⟩
      (fun _ t => ∃ m₁ m₂, Turn event m m₁ ∧ Settles m₁ m₂ ∧ m₂.toEngine = t.state)
      fun stop t => ∃ m', Halts event m stop m' ∧ m'.toEngine = t.state := by
  simp only [call_eq, workloadOf, ends_bind, ends_get, ends_pure, h, Bool.false_eq_true, ↓reduceIte]
  refine ends_turn.imp ?_ fun _ _ halts => halts
  rintro _ t ⟨m₁, turn, ht⟩
  rw [show t = ⟨m₁.toEngine, t.journal⟩ by rw [ht]]
  refine (ends_checkTermination turn).imp ?_ fun _ _ halts => halts
  rintro _ t ⟨m₂, settles, ht⟩
  exact ⟨m₁, m₂, turn, settles, ht⟩

/-- A run that has ended ignores events. -/
theorem call_of_isFinished {e : Engine κ} {event : Event} (h : e.workload.isFinished = true) :
    call event ⟨e, j⟩ = .ok () ⟨e, j⟩ := by
  suffices hs : Ends (call event) ⟨e, j⟩ (fun _ t => t = ⟨e, j⟩) fun _ _ => False by
    rw [Ends] at hs
    split at hs
    next ht => rw [ht, hs]
    next => exact hs.elim
  simp only [call, workloadOf, ends_bind, ends_get, ends_pure, h, ↓reduceIte]

/-- Only a run that has not ended stops. -/
theorem halts_of_error {event : Event} {m : Moment κ} {stop : Stop} {t : Logged (Engine κ)}
    (h : call event ⟨m.toEngine, j⟩ = .error stop t) :
    m.workload.isFinished = false ∧ ∃ m', Halts event m stop m' ∧ m'.toEngine = t.state := by
  cases hfinished : m.workload.isFinished with
  | true =>
      rw [call_of_isFinished hfinished] at h
      cases h
  | false => exact ⟨rfl, (ends_call hfinished).of_error h⟩

/-- A call that returns has made moves, or none. -/
theorem moves_of_ok {event : Event} {m : Moment κ} {t : Logged (Engine κ)}
    (h : call event ⟨m.toEngine, j⟩ = .ok () t) :
    ∃ m', ReflTransGen Move m m' ∧ m'.toEngine = t.state := by
  cases hfinished : m.workload.isFinished with
  | true =>
      rw [call_of_isFinished hfinished] at h
      cases h
      exact ⟨m, .refl, rfl⟩
  | false =>
      obtain ⟨m₁, m₂, turn, settles, ht⟩ := (ends_call hfinished).of_ok h
      exact ⟨m₂, turn.moves.tail (.settle settles), ht⟩

end Engine

end TraceReplay
