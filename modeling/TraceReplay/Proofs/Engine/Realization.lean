/-
**The engine can make every listed move.**

Each outcome of a call is a sequence of the moves listed in `TraceReplay.Proofs.Engine.Move`.  Here is the
converse, for a kernel that does not read the journal and a run that does not track memory: where the
conditions of some moves hold the engine makes them, and arrives in the state that they lead to.  A run
can therefore be followed on the moves alone.

Main definitions:

* `Action.Yields` — an action gives a value and leaves a state, whatever is in the journal.

Main results:

* `Engine.yields_drain` — a drain is carried out;
* `Engine.yields_turn` — **so is what an event does**.
-/

import TraceReplay.Proofs.Blind
import TraceReplay.Proofs.Engine.Simulation

set_option relaxedAutoImplicit false
set_option autoImplicit false

namespace TraceReplay

open Relation
open TraceReplay.Action

/-! ### Outcomes that do not depend on the journal -/

namespace Action

variable {ε σ α β : Type} {act : Action ε σ α} {a a₁ a' : σ} {b : α}

/-- From `a` the action gives `b` and leaves `a'`, whatever is in the journal. -/
def Yields (act : Action ε σ α) (a : σ) (b : α) (a' : σ) : Prop :=
  ∀ j, Ends act ⟨a, j⟩ (fun x t => (x, t.state) = (b, a')) fun _ _ => False

theorem Yields.ends (h : Yields act a b a') {Q : α → Logged σ → Prop} {E : ε → Logged σ → Prop}
    (hQ : ∀ j, Q b ⟨a', j⟩) (j : Array Entry) : Ends act ⟨a, j⟩ Q E := by
  refine (h j).imp ?_ fun _ _ hfalse => hfalse.elim
  rintro x t ⟨⟩
  exact hQ t.journal

theorem Yields.bind {x : Action ε σ β} {f : β → Action ε σ α} {y : β} (hx : Yields x a y a₁)
    (hf : Yields (f y) a₁ b a') : Yields (x >>= f) a b a' := fun j =>
  (ends_bind x f).2 (hx.ends (fun j => hf j) j)

/-- An action that does not depend on the journal gives what it gave once. -/
theorem Blind.yields (h : Blind act) {j : Array Entry} {t : Logged σ} (hr : act ⟨a, j⟩ = .ok b t) :
    Yields act a b t.state := by
  intro j'
  refine (h a j j').of_ok hr |>.imp ?_ fun _ _ hfalse => hfalse
  rintro _ t' ⟨ht, rfl⟩
  exact congrArg _ ht

end Action

/-- Only completions bring back a node. -/
theorem Arrives.ne_wake {w w' : Workload} {event : Event} {id : NodeId} {c : NodeClass}
    (arrives : Arrives w event id c w') : event ≠ .wake := by
  cases arrives with
  | @token token context out => cases context.expected <;> rintro ⟨⟩
  | handle out last => rintro ⟨⟩

namespace Engine

variable {κ : Type} [Kernel κ] {m m' : Moment κ}

/-! ### Requests -/

section

variable (blind : Kernel.Blind κ) {e : Engine κ} {id : NodeId} {c : NodeClass} {k : κ}

include blind

/-- What the kernel takes is asked of it. -/
theorem yields_request {operation : Operation}
    (takes : Kernel.Takes e.kernel ⟨e.workload.inFlight.issued⟩ operation k) :
    Yields (request id c operation) e () {
      workload := { e.workload with
        inFlight := (e.workload.inFlight.insert ⟨id, c, operation.expected⟩).2 }
      kernel := k
      asked := e.asked.push (id, .operation ⟨e.workload.inFlight.issued⟩ operation) } := by
  obtain ⟨j, t, ht, rfl⟩ := takes
  intro j'
  simp only [request, workloadOf, updateWorkload, onKernel, noteRequest, InFlight.insert, ends_bind,
    ends_get, ends_pure, ends_update, ends_on, ends_stopAs]
  exact ((blind.start _ _).yields ht).ends (fun _ => rfl) j'

/-- So is what it gives a handle for. -/
theorem yields_gather {gathering : Gathering} {handle : Handle} {gatherings : Gatherings}
    (gives : Kernel.Gives e.kernel gathering handle k)
    (registered : e.workload.gatherings.register handle id c = .ok gatherings) :
    Yields (gather id c gathering) e () {
      workload := { e.workload with gatherings }
      kernel := k
      asked := e.asked.push (id, .gathering handle gathering) } := by
  obtain ⟨j, t, ht, rfl⟩ := gives
  intro j'
  simp only [gather, workloadOf, updateWorkload, onKernel, noteRequest, ends_bind, ends_get,
    ends_pure, ends_update, ends_on, ends_stopAs]
  refine ((blind.gather _).yields ht).ends (fun _ => ?_) j'
  rw [registered]
  exact rfl

end

/-! ### Issuing -/

section

variable {e : Engine κ} {id : NodeId} {n : Node} {rest : List NodeId} {plan : Plan}

omit [Kernel κ] in
theorem yields_planOf (planned : e.workload.planOf n = .ok plan) : Yields (planOf n) e plan e := by
  refine fun j => ends_planOf (fun plan' h => ?_) (fun x j' h => ?_) (fun x h => ?_) fun f h => ?_
  · cases planned.symm.trans h
    rfl
  · cases planned.symm.trans h
  · cases planned.symm.trans h
  · cases planned.symm.trans h

omit [Kernel κ] in
theorem yields_planOf_skip (skips : e.workload.Skips n) : Yields (planOf n) e .skip e := by
  rcases skips with planned | ⟨x, bad, forgiven⟩
  · exact yields_planOf planned
  · refine fun j => ends_planOf (fun plan h => ?_) (fun y j' h _ => rfl) (fun y h hy => ?_)
      fun f h => ?_
    · cases bad.symm.trans h
    · cases bad.symm.trans h
      cases forgiven.symm.trans hy
    · cases bad.symm.trans h

variable (blind : Kernel.Blind κ)

include blind

/-- The operation that a plan comes to is asked of the kernel. -/
theorem yields_dispatch_of_starts {tick : Tick} {operation : Operation} {metrics : Option Metrics}
    {k : κ} (starts : plan.Starts e.workload.config.roofline operation metrics)
    (takes : Kernel.Takes e.kernel ⟨e.workload.inFlight.issued⟩ operation k) :
    Yields (dispatch id n.nodeClass plan)
      { e with workload := e.workload.opened id n.nodeClass tick none } () {
        workload := { e.workload.opened id n.nodeClass tick metrics with
          inFlight := (e.workload.inFlight.insert ⟨id, n.nodeClass, operation.expected⟩).2 }
        kernel := k
        asked := e.asked.push (id, .operation ⟨e.workload.inFlight.issued⟩ operation) } := by
  cases starts with
  | operation operation => exact yields_request blind takes
  | @roofline roofline numOps ioSize estimate model costs =>
      have recorded := recordEstimate_recordStart e.workload.statistics id n.nodeClass tick estimate
      replace recorded : (e.workload.opened id n.nodeClass tick none).statistics.recordEstimate id
        estimate = _ := recorded
      have config : (e.workload.opened id n.nodeClass tick none).config = e.workload.config := rfl
      intro j
      simp only [dispatch, requestEstimated, workloadOf, updateWorkload, ends_bind, ends_get,
        ends_pure, config, model, costs, recorded, ends_lift_orFault_ok, ends_update]
      refine yields_request blind ?_ j
      exact takes

/-- So is the collective. -/
theorem yields_dispatch_of_gathers {tick : Tick} {gathering : Gathering} {handle : Handle}
    {gatherings : Gatherings} {k : κ} (gathers : plan.Gathers e.workload.group gathering)
    (gives : Kernel.Gives e.kernel gathering handle k)
    (registered : e.workload.gatherings.register handle id n.nodeClass = .ok gatherings) :
    Yields (dispatch id n.nodeClass plan)
      { e with workload := e.workload.opened id n.nodeClass tick none } () {
        workload := { e.workload.opened id n.nodeClass tick none with gatherings }
        kernel := k
        asked := e.asked.push (id, .gathering handle gathering) } := by
  cases gathers with
  | collective kind size involvedDims priority =>
      refine fun j => yields_gather blind ?_ ?_ j
      · exact gives
      · exact registered
  | timed duration =>
      refine fun j => yields_gather blind ?_ ?_ j
      · exact gives
      · exact registered

/-- **A node that is skipped or issued is taken care of.** -/
theorem yields_issue (front : m.Front id n rest) (room : m.workload.pool.hasRoom n.nodeClass = true)
    (offer : Offer m m') :
    Yields (issue id) { m.toEngine with workload := m.workload.withReady rest } () m'.toEngine ∧
      m'.aside = m.aside := by
  have found : (m.workload.withReady rest).graph.lookup id = some n := front.found
  -- what is not skipped takes its slot, and then its plan is carried out
  have issued {plan : Plan} {e : Engine κ} (planned : (m.workload.withReady rest).planOf n = .ok plan)
      (hskip : plan ≠ .skip)
      (dispatched : Yields (dispatch id n.nodeClass plan)
        { m.toEngine with
          workload := (m.workload.withReady rest).opened id n.nodeClass (Kernel.now m.kernel) none }
        () e) :
      Yields (issue id) { m.toEngine with workload := m.workload.withReady rest } () e := by
    intro j
    simp only [issue, ends_bind, ends_lookup, found]
    refine (yields_planOf (e := { m.toEngine with workload := m.workload.withReady rest })
      planned).ends (fun j => ?_) j
    simp only [ends_now]
    refine ends_traceLine fun j => ?_
    simp only [hskip, ↓reduceIte, ends_bind]
    refine ends_occupy room fun j => ?_
    simp only [ends_updateWorkload]
    exact dispatched j
  cases offer with
  | block front' full =>
      obtain ⟨-, rfl, -⟩ := front.unique front'
      cases full.symm.trans room
  | skip front' room' skips freed =>
      obtain ⟨rfl, rfl, rfl⟩ := front.unique front'
      refine ⟨fun j => ?_, rfl⟩
      simp only [issue, ends_bind, ends_lookup, found]
      refine (yields_planOf_skip (e := { m.toEngine with workload := m.workload.withReady _ })
        skips).ends (fun j => ?_) j
      simp only [ends_now]
      refine ends_traceLine fun j => ?_
      simp only [↓reduceIte, skip, ends_bind, ends_updateWorkload, onStatistics, ends_on,
        ends_changeGraph]
      refine ends_recordEnd_skip ?_
      simp only [freed]
      rfl
  | start front' room' planned starts takes =>
      obtain ⟨rfl, rfl, rfl⟩ := front.unique front'
      refine ⟨issued planned (by rintro rfl; cases starts) ?_, rfl⟩
      exact yields_dispatch_of_starts (e := { m.toEngine with workload := m.workload.withReady _ })
        blind starts takes
  | gather front' room' planned gathers gives registered =>
      obtain ⟨rfl, rfl, rfl⟩ := front.unique front'
      refine ⟨issued planned (by rintro rfl; cases gathers) ?_, rfl⟩
      exact yields_dispatch_of_gathers (e := { m.toEngine with workload := m.workload.withReady _ })
        blind gathers gives registered

/-! ### Drains -/

/-- A drain takes one node after the other, and hands back those that it has put aside. -/
theorem ends_drainFrom_of_offers {before : List NodeId} {Q : Unit → Logged (Engine κ) → Prop}
    {E : Stop → Logged (Engine κ) → Prop} (offers : ReflTransGen Offer m m')
    (ready : m'.workload.graph.ready = [])
    (hQ : ∀ held j, m'.aside = before ++ held →
      Q () ⟨{ m'.toEngine with workload := m'.workload.withReady held }, j⟩) :
    ∀ {fuel : Nat} {blocked : List NodeId} (j : Array Entry), m.workload.graph.work < fuel →
      m.aside = before ++ blocked → Ends (drainFrom fuel blocked) ⟨m.toEngine, j⟩ Q E := by
  induction offers using ReflTransGen.head_induction_on with
  | refl =>
      intro fuel blocked j hfuel haside
      obtain ⟨fuel, rfl⟩ := Nat.exists_eq_succ_of_ne_zero (Nat.ne_zero_of_lt hfuel)
      simp only [drainFrom, ends_bind, ends_takeReady, ready, handBack, ends_updateWorkload,
        foldl_pushBack, List.nil_append]
      exact hQ blocked j haside
  | @head m m₁ offer offers ih =>
      intro fuel blocked j hfuel haside
      obtain ⟨fuel, rfl⟩ := Nat.exists_eq_succ_of_ne_zero (Nat.ne_zero_of_lt hfuel)
      have hwork := work_offer offer
      obtain ⟨id, n, rest, front⟩ : ∃ id n rest, m.Front id n rest := by
        cases offer <;> exact ⟨_, _, _, ‹_›⟩
      have found : (m.workload.withReady rest).graph.lookup id = some n := front.found
      simp only [drainFrom, ends_bind, ends_takeReady, front.queue, ends_lookup, found, onPool,
        SlotPool.check, ends_on, ends_stopAs, ends_get, ends_note, ends_pure, ends_ite]
      refine ⟨fun room => ?_, fun full => ?_⟩
      · obtain ⟨hissue, haside'⟩ := yields_issue blind front room offer
        exact hissue.ends (fun j => ih j (by omega) (haside'.trans haside)) _
      · -- a node that finds no slot is put aside
        have aside : m₁ = { m with
            workload := m.workload.withReady rest, aside := m.aside ++ [id] } := by
          cases offer with
          | block front' =>
              obtain ⟨rfl, rfl, rfl⟩ := front.unique front'
              rfl
          | skip front' room | start front' room | gather front' room =>
              obtain ⟨rfl, rfl, rfl⟩ := front.unique front'
              exact absurd room full
        rw [aside] at ih hwork
        refine ih _ (by omega) ?_
        rw [← List.append_assoc, haside]

/-- **A drain is carried out.** -/
theorem yields_drain (drains : Drains m m') : Yields drain m.toEngine () m'.toEngine := by
  obtain ⟨m₁, held, offers, ready, haside, rfl⟩ := drains
  intro j
  simp only [drain, workloadOf, ends_bind, ends_get, ends_pure]
  refine ends_drainFrom_of_offers blind offers ready (fun held' j haside' => ?_) j
    (Nat.lt_succ_self _) (List.append_nil _).symm
  rw [List.append_cancel_left (haside.symm.trans haside')]

end

/-! ### Completions -/

omit [Kernel κ] in
/-- An event that brings back a node is taken. -/
theorem yields_arrive {event : Event} {id : NodeId} {c : NodeClass} {w : Workload}
    (arrives : Arrives m.workload event id c w) :
    Yields (arrive event) m.toEngine (some (id, c)) { m.toEngine with workload := w } := by
  intro j
  cases arrives with
  | @token token context out =>
      have taken (event : Event) (admits : context.expected.admits event = true) :
          m.workload.inFlight.take token event = .ok (context, { m.workload.inFlight with
            contexts := m.workload.inFlight.contexts.erase token.index }) := by
        simp only [InFlight.take, out, admits, ↓reduceIte]
      cases hexpected : context.expected with
      | nodeFinished | packetSent | packetReceived =>
          simp only [Expected.event, arrive, workloadOf, ends_bind, ends_get, ends_pure]
          rw [taken _ (by rw [hexpected]; rfl)]
          rfl
  | handle out last =>
      simp only [arrive, onGatherings, Gatherings.complete, ends_bind, ends_on, ends_stopAs, ends_get,
        out, last]
      rfl

omit [Kernel κ] in
/-- A record is closed. -/
theorem yields_recordEnd {s s' : Statistics} {n : Node} {tick : Tick} (untracked : s.memory = none)
    (closed : s.Closed n tick s') : Yields (Statistics.recordEnd n tick) s () s' := by
  obtain ⟨r, memory, hr, hstart, spares, rfl⟩ := closed
  cases spares.eq_none untracked
  intro j
  simp only [Statistics.recordEnd, ends_bind, ends_get, hr, Nat.not_lt.2 hstart, ↓reduceIte, ends_put,
    Statistics.onMemory, untracked, ends_ite, ends_pure, implies_true, and_self]

/-- The record of a node that is brought back is closed, its slot is given back and its children are
told. -/
theorem yields_retire {event : Event} {m₁ m₂ : Moment κ} (untracked : m.workload.statistics.memory = none)
    (closes : Closes event m m₁) (frees : Frees m₁ m₂) :
    ∃ id c w, Arrives m.workload event id c w ∧
      Yields (retire id c) { m.toEngine with workload := w } () m₂.toEngine ∧
      ∃ rest, m₂.lingering = id :: rest := by
  obtain @⟨id, c, n, w, statistics, arrives, found, closed⟩ := closes
  obtain ⟨hclosed, holds, freed⟩ := frees
  cases hclosed
  obtain ⟨hgraph, hstatistics, -⟩ := arrives.keeps
  refine ⟨id, c, w, arrives, fun j => ?_, _, rfl⟩
  simp only [retire, ends_bind, ends_now, ends_lookup, hgraph, found]
  refine ends_traceLine fun j => ?_
  simp only [recordEnd, ends_bind, ends_outcome, onStatistics, ends_on, hstatistics]
  refine (yields_recordEnd untracked closed).ends (fun j => ?_) j
  simp only [ends_pure]
  refine ends_release (fun j _ => ?_) fun f t r hr idle => absurd idle (holds r hr)
  simp only [ends_changeGraph]
  simp only at freed
  simp only [freed]

/-- **What an event does is done.** -/
theorem yields_turn (blind : Kernel.Blind κ) {event : Event}
    (untracked : m.workload.statistics.memory = none) (h : Turn event m m') :
    Yields (turn event) m.toEngine () m'.toEngine := by
  cases h with
  | wake drains =>
      exact yields_drain (m := { m with delivered := .wake :: m.delivered }) blind drains
  | complete closes frees drains removes =>
      obtain ⟨id, c, w, arrives, retires, rest, told⟩ := yields_retire untracked closes frees
      rw [turn_eq arrives.ne_wake]
      refine (yields_arrive arrives).bind ?_
      simp only [finishNode_eq]
      refine retires.bind ((yields_drain blind drains).bind ?_)
      obtain ⟨told'⟩ := removes
      cases told'.symm.trans (drains.keeps.1.lingering.trans told)
      exact fun j => rfl
  | drop drops =>
      obtain ⟨rfl, out, others⟩ := drops
      intro j
      simp only [turn, arrive, onGatherings, Gatherings.complete, ends_bind, ends_on, ends_stopAs,
        ends_get, out, others]
      rfl

end Engine

end TraceReplay
