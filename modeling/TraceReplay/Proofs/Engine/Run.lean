/-
**Runs.**

A run is a sequence of calls of an engine.  Between two calls the kernel does what it likes, except that
its clock does not go back; the events that it hands over are wakes and the completions that it still
owes, in any order.  A call may return an error, and others may follow; after a fault there are none.

Main definitions:

* `Call`, `Run` — calls with their results, and runs;
* `Outstanding` — the completions that a kernel still owes;
* `Quiet` — no call has returned an error;
* `AtRest` — what is known of the moment at which a run has arrived.

Main results:

* `Halts.moves` — the moves of a call that returns an error;
* `Run.atRest` — every run arrives at a moment at which the parts of the engine fit together.
-/

import TraceReplay.Proofs.Engine.Coherence

set_option relaxedAutoImplicit false
set_option autoImplicit false

namespace TraceReplay

open Relation

variable {κ : Type}

/-! ### Calls that return an error -/

section

variable {s : Setup} {m m' : Moment κ} {event : Event} {x : ReplayError}

/-- When the run can end no record is open. -/
theorem Coherent.unfinished_eq_none (hc : Coherent s m)
    (done : m.workload.adapter.hasRemainingWork m.workload.graph = false) :
    m.workload.statistics.unfinished? = none := by
  rw [Statistics.unfinished?, List.find?_eq_none]
  intro r hr hopen
  obtain ⟨⟨id, r'⟩, hmem, rfl⟩ := List.mem_map.1 hr
  have hfind := (SortedMap.mem_toList_iff _ _ _).1 hmem
  exact hc.not_running done id
    (Record.running_iff.2 ⟨r', hfind, Option.isNone_iff_eq_none.1 hopen⟩)

/-- While a node is in none of the engine's structures there is work left. -/
theorem Coherent.not_loose (hc : Coherent s m)
    (done : m.workload.adapter.hasRemainingWork m.workload.graph = false) : ¬m.Loose := by
  -- such a node is still in the graph
  have habsent {id : NodeId} (hin : ¬(id ∈ m.workload.graph.freed ∧ id ∉ m.lingering))
      (hknown : ∃ n, s.graph.lookup id = some n) : False := by
    obtain ⟨n, hn⟩ := hknown
    have hpresent := hc.lifecycle.present id
    rw [hc.lookup_eq_none done id, if_neg hin, hn] at hpresent
    cases hpresent
  rintro (haside | hunfreed | hlingering)
  · obtain ⟨id, hid⟩ := List.exists_mem_of_ne_nil _ haside
    obtain ⟨⟨n, hn, -⟩, hnone⟩ :=
      (hc.lifecycle.queued id).1 (List.mem_append_right m.workload.graph.ready hid)
    exact habsent (fun hfreed => hc.lifecycle.notMem_freed_of_none hnone hfreed.1) ⟨n, hn⟩
  · obtain ⟨p, hp⟩ := List.exists_mem_of_ne_nil _ hunfreed
    have hid := List.mem_map_of_mem (f := Prod.fst) hp
    obtain ⟨r, finish, hr, -⟩ := Record.ended_iff.1 (hc.lifecycle.ended _ hid)
    obtain ⟨⟨n, hn, -⟩, -⟩ := hc.lifecycle.started _ r hr
    exact habsent (fun hfreed => hc.lifecycle.notMem_freed hid hfreed.1) ⟨n, hn⟩
  · obtain ⟨id, hid⟩ := List.exists_mem_of_ne_nil _ hlingering
    obtain ⟨r, finish, hr, -⟩ := Record.ended_iff.1
      ((hc.lifecycle.freed id).1 (hc.lifecycle.told id hid)).1
    obtain ⟨⟨n, hn, -⟩, -⟩ := hc.lifecycle.started id r hr
    exact habsent (fun hfreed => hfreed.2 hid) ⟨n, hn⟩

variable [Kernel κ]

/-- A drain that stops with an error leaves the node at which it stops aside. -/
theorem Refuses.move (hc : Coherent s m) (h : Refuses m (.error x) m') :
    Move m m' ∧ Keeps m m' ∧ m'.Loose := by
  cases h with
  | unknown queue missing => exact absurd missing (hc.lookup_front queue)
  | unplanned front bad unforgiven =>
      exact ⟨.leave front.queue, ⟨rfl, rfl, rfl, rfl, rfl⟩, .inl (by simp)⟩

/-- **A call that returns an error has made some of the moves of a call**, and leaves a node behind. -/
theorem Halts.moves (hc : Coherent s m) (h : Halts event m (.error x) m') :
    ReflTransGen Move m m' ∧ m'.delivered = event :: m.delivered ∧
      m'.workload.finishTick = m.workload.finishTick ∧ m'.workload.report = m.workload.report ∧
      m'.Loose := by
  cases h with
  | wake same offers refuses =>
      subst same
      have hmoves := (Move.of_offers offers).head (.wake m)
      obtain ⟨hmove, hkeeps, hloose⟩ := refuses.move (hc.moves hmoves)
      have hkept := hkeeps.trans (Offer.keeps_many offers)
      exact ⟨hmoves.tail hmove, hkept.delivered, hkept.finishTick, hkept.report, hloose⟩
  | unknown arrives missing =>
      obtain ⟨hrunning, -⟩ := hc.custody.of_arrives arrives
      obtain ⟨n, hn, -⟩ := hc.present_of_running hrunning
      rw [missing] at hn
      cases hn
  | traffic closes tracked kind unforgiven =>
      obtain ⟨hdelivered, hfinish, hreport⟩ := closes.keeps
      refine ⟨.single (.close closes), hdelivered, hfinish, hreport, ?_⟩
      cases closes
      exact .inr (.inl (List.cons_ne_nil _ _))
  | drain closes frees offers refuses =>
      have hmoves := (Move.of_offers offers).head (.free frees) |>.head (.close closes)
      obtain ⟨hmove, hkeeps, hloose⟩ := refuses.move (hc.moves hmoves)
      have hkept := hkeeps.trans (Offer.keeps_many offers)
      obtain ⟨hdelivered, hfinish, hreport⟩ := closes.keeps
      cases frees
      exact ⟨hmoves.tail hmove, hkept.delivered.trans hdelivered, hkept.finishTick.trans hfinish,
        hkept.report.trans hreport, hloose⟩
  | summary turn done idle bad =>
      have hnone := (hc.moves turn.moves).unfinished_eq_none done
      exact absurd hnone (Engine.unfinished_of_summarize bad)

end

/-! ### Blocked queues -/

/-- No node in the queue finds a slot. -/
def Blocked (s : Setup) (m : Moment κ) : Prop :=
  ∀ id n, id ∈ m.workload.graph.ready → s.graph.lookup id = some n →
    m.workload.pool.hasRoom n.nodeClass = false

/-- No node put aside finds a slot. -/
def Passed (s : Setup) (m : Moment κ) : Prop :=
  ∀ id n, id ∈ m.aside → s.graph.lookup id = some n → m.workload.pool.hasRoom n.nodeClass = false

section

variable [Kernel κ] {s : Setup} {m m' : Moment κ} {event : Event}

/-- A drain only takes slots. -/
theorem Offer.full (h : Offer m m') {c : NodeClass} (hfull : m.workload.pool.hasRoom c = false) :
    m'.workload.pool.hasRoom c = false := by
  have htake : ∀ c', (m.workload.pool.take c').hasRoom c = false := by
    intro c'
    rw [← Bool.not_eq_true, SlotPool.hasRoom_iff] at hfull ⊢
    intro hroom
    refine hfull fun r hr => ?_
    have hlt := hroom r hr
    rw [SlotPool.taken_take, SlotPool.capacity_take] at hlt
    omega
  cases h with
  | block => exact hfull
  | skip => exact hfull
  | start => exact htake _
  | gather => exact htake _

/-- **Nodes are put aside because they are blocked, and they stay blocked.** -/
theorem Offer.passed (hc : Coherent s m) (h : Offer m m') (hpassed : Passed s m) : Passed s m' := by
  intro id n hid hn
  -- only blocking a node adds to those aside, and slots are not given back in between
  refine h.full ?_
  cases h with
  | @block id' n' rest front full =>
      rcases List.mem_append.1 hid with hid | hid
      · exact hpassed id n hid hn
      · cases List.mem_singleton.1 hid
        obtain ⟨hn', -⟩ := hc.front front
        cases hn.symm.trans hn'
        exact full
  | skip => exact hpassed id n hid hn
  | start => exact hpassed id n hid hn
  | gather => exact hpassed id n hid hn

theorem Offer.passed_many (hc : Coherent s m) (hoffers : ReflTransGen Offer m m')
    (hpassed : Passed s m) : Passed s m' := by
  induction hoffers with
  | refl => exact hpassed
  | tail hmoves hoffer ih => exact hoffer.passed (hc.moves (Move.of_offers hmoves)) ih

theorem Drains.blocked (hc : Coherent s m) (h : Drains m m') (haside : m.aside = []) :
    Blocked s m' := by
  obtain ⟨m₁, held, hoffers, hready, hheld, rfl⟩ := h
  have hpassed : Passed s m := fun id n hid => by simp [haside] at hid
  rw [haside, List.nil_append] at hheld
  exact fun id n hid hn => Offer.passed_many hc hoffers hpassed id n (hheld ▸ hid) hn

/-- What an event does ends with a drain, so that the nodes left in the queue are blocked. -/
theorem Turn.blocked (hc : Coherent s m) (h : Turn event m m') (haside : m.aside = []) :
    Blocked s m' := by
  cases h with
  | wake drains => exact drains.blocked (hc.move (.wake m)) haside
  | complete closes frees drains removes =>
      have hblocked := drains.blocked ((hc.close closes).free frees) (by
        cases frees
        cases closes
        exact haside)
      cases removes
      intro id n hid hn
      rw [Graph.ready_remove] at hid
      exact hblocked id n hid hn
  | drop drops => exact absurd drops hc.not_drops

end

/-! ### Runs -/

/-- A call: the event that was handed over, and the error that it was answered with. -/
structure Call where
  event : Event
  error : Option ReplayError

/-- No call has returned an error. -/
def Quiet (calls : List Call) : Prop := ∀ c ∈ calls, c.error = none

/-- The engine before the first call. -/
def Setup.engine (s : Setup) (k : κ) : Engine κ := { workload := s.workload, kernel := k }

/-- The moment before the first call. -/
def Setup.moment (s : Setup) (k : κ) : Moment κ :=
  { toEngine := s.engine k, delivered := [], aside := [], unfreed := [], lingering := [] }

/-- A run does not begin finished. -/
theorem Setup.isFinished_moment (s : Setup) (k : κ) : (s.moment k).workload.isFinished = false := by
  obtain ⟨-, group, hw⟩ := s.created_iff
  simp only [Setup.moment, Setup.engine, hw]
  rfl

variable [Kernel κ]

/-- Runs, with their calls, latest first. -/
inductive Run (s : Setup) : List Call → Engine κ → Prop
  | start (k : κ) : Run s [] (s.engine k)
  | returns {calls : List Call} {e : Engine κ} {k : κ} {event : Event} {j : Array Entry}
      {t : Logged (Engine κ)} (run : Run s calls e) (later : Kernel.now e.kernel ≤ Kernel.now k)
      (conforms : event = .wake ∨ Outstanding (calls.map Call.event) e.asked event)
      (call : Engine.call event ⟨{ e with kernel := k }, j⟩ = .ok () t) :
      Run s (⟨event, none⟩ :: calls) t.state
  | fails {calls : List Call} {e : Engine κ} {k : κ} {event : Event} {j : Array Entry}
      {t : Logged (Engine κ)} {x : ReplayError} (run : Run s calls e)
      (later : Kernel.now e.kernel ≤ Kernel.now k)
      (conforms : event = .wake ∨ Outstanding (calls.map Call.event) e.asked event)
      (call : Engine.call event ⟨{ e with kernel := k }, j⟩ = .error (.error x) t) :
      Run s (⟨event, some x⟩ :: calls) t.state

/-- What is known of the moment at which a run has arrived. -/
structure AtRest (s : Setup) (calls : List Call) (m : Moment κ) : Prop where
  coherent : Coherent s m
  punctual : Kernel.Steady κ → Punctual s m
  delivered : m.delivered = calls.map Call.event
  /-- When the run has ended nothing is left to do. -/
  finished : m.workload.isFinished = true → calls ≠ [] ∧
    m.workload.graph.hasRemainingWork = false ∧ m.workload.pool.isIdle = true
  /-- There is a report when the run has ended. -/
  reported : m.workload.report.isSome = m.workload.isFinished
  /-- Calls that return leave no node behind, -/
  tidy : Quiet calls → m.aside = [] ∧ m.unfreed = [] ∧ m.lingering = []
  /-- and the others do. -/
  loose : ¬Quiet calls → m.Loose
  /-- The nodes left in the queue are blocked. -/
  blocked : Quiet calls → calls ≠ [] → Blocked s m
  /-- The run ends as soon as nothing is left to do. -/
  busy : Quiet calls → calls ≠ [] → m.workload.isFinished = false →
    m.workload.graph.hasRemainingWork = true ∨ m.workload.pool.isIdle = false

namespace AtRest

variable {s : Setup} {calls : List Call} {m m' : Moment κ} {event : Event}

/-- Before the first call. -/
theorem initial (s : Setup) (k : κ) : AtRest s [] (s.moment k) := by
  obtain ⟨-, group, hw⟩ := s.created_iff
  have hgraph : s.workload.graph = s.graph := by rw [hw]; rfl
  have hcoherent : Coherent s (s.moment k) := by
    constructor
    all_goals simp only [Setup.moment, Setup.engine, hw]
    · rfl
    · rfl
    · exact .initial s.built
    · exact .initial _
    · exact .initial _ _
    · intro id r n hr
      cases hr
    · intro ht
      simp [Workload.initial, Statistics.ofSystem, ht]
    · intro tracker id htracker hrunning
      cases hrunning
  refine ⟨hcoherent, fun _ => ?_, rfl, fun h => ?_, ?_, fun _ => ⟨rfl, rfl, rfl⟩,
    fun h => absurd (fun c hc => absurd hc List.not_mem_nil) h, fun _ h => absurd rfl h,
    fun _ h => absurd rfl h⟩
  · simp only [Punctual, Setup.moment, Setup.engine, hw]
    exact .initial _ _ _
  · simp only [Setup.moment, Setup.engine, hw] at h
    cases h
  · simp only [Setup.moment, Setup.engine, hw]
    rfl

/-- The kernel moves on. -/
theorem later (h : AtRest s calls m) {k : κ} (hle : Kernel.now m.kernel ≤ Kernel.now k) :
    AtRest s calls { m with kernel := k } :=
  { h with
    coherent := { h.coherent with }
    punctual := fun steady => Timing.later (h.punctual steady) hle }

/-- In a run without errors children are told of the nodes that ended, -/
theorem freed_iff (h : AtRest s calls m) (quiet : Quiet calls) (id : NodeId) :
    id ∈ m.workload.graph.freed ↔ Record.ended m.workload.statistics.records id = true := by
  rw [h.coherent.lifecycle.freed id, (h.tidy quiet).2.1]
  simp

/-- these are removed, -/
theorem lookup_eq (h : AtRest s calls m) (quiet : Quiet calls) (id : NodeId) :
    m.workload.graph.lookup id =
      if Record.ended m.workload.statistics.records id then none else s.graph.lookup id := by
  rw [h.coherent.lifecycle.present id, (h.tidy quiet).2.2]
  simp [h.freed_iff quiet id]

/-- and queued are all nodes that wait for none and have no record. -/
theorem ready_iff (h : AtRest s calls m) (quiet : Quiet calls) (id : NodeId) :
    id ∈ m.workload.graph.ready ↔
      s.graph.Unblocked m.workload.graph.freed id ∧ m.workload.statistics.records.find? id = none := by
  rw [← h.coherent.lifecycle.queued id, (h.tidy quiet).1, List.append_nil]

/-- Once the run has ended nothing is outstanding. -/
theorem not_outstanding (h : AtRest s calls m) (hfinished : m.workload.isFinished = true)
    (event : Event) : ¬Outstanding (calls.map Call.event) m.asked event := by
  intro hout
  obtain ⟨-, hdone, -⟩ := h.finished hfinished
  rw [Graph.hasRemainingWork, Bool.or_eq_false_iff, Bool.not_eq_false', Graph.isEmpty] at hdone
  rw [← h.delivered] at hout
  -- a node in flight would still be in the graph
  obtain ⟨id, hrunning⟩ := h.coherent.custody.running_of_outstanding hout
  obtain ⟨n, hn, -⟩ := h.coherent.present_of_running hrunning
  rw [Graph.lookup, SortedMap.isEmpty_iff.1 hdone.1] at hn
  cases hn

/-- After what an event does in a run that has not ended. -/
theorem turns (h : AtRest s calls m) (hfinished : m.workload.isFinished = false) {m₁ m₂ : Moment κ}
    (turn : Turn event m m₁) (settles : Settles m₁ m₂) :
    AtRest s (⟨event, none⟩ :: calls) m₂ := by
  have hquiet : Quiet (⟨event, none⟩ :: calls) → Quiet calls := fun hq c hc =>
    hq c (List.mem_cons_of_mem _ hc)
  have hloud : ¬Quiet (⟨event, none⟩ :: calls) → m.Loose := fun hl => h.loose fun hq =>
    hl fun c hc => (List.mem_cons.1 hc).elim (fun hc => by rw [hc]) (hq c)
  obtain ⟨hdelivered, haside, hunfreed, hlingering, hfinish, hreport⟩ := turn.keeps
  have hcoherent := h.coherent.moves turn.moves
  have hmoves := turn.moves.tail (.settle settles)
  exact {
    coherent := hcoherent.settle settles
    punctual := fun steady => (h.punctual steady).moves steady h.coherent hmoves
    delivered := by
      rw [List.map_cons, ← h.delivered, ← hdelivered]
      cases settles <;> rfl
    finished := by
      intro hf
      cases settles with
      | goOn busy =>
          rw [Workload.isFinished, hfinish] at hf
          exact absurd hf (Bool.eq_false_iff.1 hfinished)
      | finish done idle =>
          rw [hcoherent.adapter] at done
          exact ⟨List.cons_ne_nil _ _, done, idle⟩
    reported := by
      cases settles with
      | goOn busy => rw [hreport, h.reported, Workload.isFinished, Workload.isFinished, hfinish]
      | finish done idle => rfl
    tidy := by
      intro hq
      obtain ⟨h₁, h₂, h₃⟩ := h.tidy (hquiet hq)
      cases settles <;> exact ⟨haside.trans h₁, hunfreed.trans h₂, hlingering.trans h₃⟩
    loose := by
      intro hl
      have := hloud hl
      rw [Moment.Loose, ← haside, ← hunfreed, ← hlingering] at this
      cases settles <;> exact this
    blocked := by
      intro hq _
      have := turn.blocked h.coherent (h.tidy (hquiet hq)).1
      cases settles <;> exact this
    busy := by
      intro _ _ hunfinished
      cases settles with
      | goOn busy =>
          rw [hcoherent.adapter, Bool.or_eq_true, Bool.not_eq_true'] at busy
          exact busy
      | finish done idle => cases hunfinished }

/-- After a call that returns. -/
theorem returns (h : AtRest s calls m)
    (conforms : event = .wake ∨ Outstanding (calls.map Call.event) m.asked event) {j : Array Entry}
    {t : Logged (Engine κ)} (call : Engine.call event ⟨m.toEngine, j⟩ = .ok () t) :
    ∃ m', m'.toEngine = t.state ∧ AtRest s (⟨event, none⟩ :: calls) m' := by
  -- once the run has ended there are only wakes, which change nothing
  by_cases hfinished : m.workload.isFinished = true
  · have hquiet : Quiet (⟨event, none⟩ :: calls) → Quiet calls := fun hq c hc =>
      hq c (List.mem_cons_of_mem _ hc)
    rw [Engine.call_of_isFinished hfinished] at call
    cases call
    obtain rfl | hout := conforms
    · have hne := (h.finished hfinished).1
      exact ⟨{ m with delivered := .wake :: m.delivered }, rfl,
        { h with
          coherent := h.coherent.move (.wake m)
          delivered := by rw [List.map_cons, ← h.delivered]
          finished := fun hf => ⟨List.cons_ne_nil _ _, (h.finished hf).2⟩
          tidy := fun hq => h.tidy (hquiet hq)
          loose := fun hl => h.loose fun hq =>
            hl fun c hc => (List.mem_cons.1 hc).elim (fun hc => by rw [hc]) (hq c)
          blocked := fun hq _ => h.blocked (hquiet hq) hne
          busy := fun hq _ => h.busy (hquiet hq) hne }⟩
    · exact absurd hout (h.not_outstanding hfinished event)
  · have hunfinished := Bool.eq_false_iff.2 hfinished
    obtain ⟨m₁, m₂, turn, settles, ht⟩ := (Engine.ends_call hunfinished).of_ok call
    exact ⟨m₂, ht, h.turns hunfinished turn settles⟩

/-- After a call that returns an error. -/
theorem fails (h : AtRest s calls m) {j : Array Entry} {t : Logged (Engine κ)} {x : ReplayError}
    (call : Engine.call event ⟨m.toEngine, j⟩ = .error (.error x) t) :
    ∃ m', m'.toEngine = t.state ∧ AtRest s (⟨event, some x⟩ :: calls) m' := by
  have hloud : ¬Quiet (⟨event, some x⟩ :: calls) := fun hq => by
    cases hq _ List.mem_cons_self
  obtain ⟨hfinished, m', halts, ht⟩ := Engine.halts_of_error call
  obtain ⟨hmoves, hdelivered, hfinish, hreport, hloose⟩ := halts.moves h.coherent
  refine ⟨m', ht, ?_⟩
  exact {
    coherent := h.coherent.moves hmoves
    punctual := fun steady => (h.punctual steady).moves steady h.coherent hmoves
    delivered := by rw [List.map_cons, ← h.delivered, hdelivered]
    finished := fun hf => by
      rw [Workload.isFinished, hfinish] at hf
      rw [Workload.isFinished, hf] at hfinished
      cases hfinished
    reported := by rw [hreport, h.reported, Workload.isFinished, Workload.isFinished, hfinish]
    tidy := fun hq => absurd hq hloud
    loose := fun _ => hloose
    blocked := fun hq => absurd hq hloud
    busy := fun hq => absurd hq hloud }

end AtRest

/-- **Every run arrives at a moment at which the parts of the engine fit together.** -/
theorem Run.atRest {s : Setup} {calls : List Call} {e : Engine κ} (run : Run s calls e) :
    ∃ m, m.toEngine = e ∧ AtRest s calls m := by
  induction run with
  | start k => exact ⟨s.moment k, rfl, .initial s k⟩
  | returns run later conforms call ih =>
      obtain ⟨m, rfl, h⟩ := ih
      exact (h.later later).returns conforms call
  | fails run later conforms call ih =>
      obtain ⟨m, rfl, h⟩ := ih
      exact (h.later later).fails call

/-! ### Runs by computation -/

instance (delivered : List Event) (asked : Array (NodeId × Issued)) (event : Event) :
    Decidable (Outstanding delivered asked event) := inferInstanceAs (Decidable (_ < _))

/-- The engine after events, latest first, each handed over by the kernel next to it; there is none if
one of them may not be handed over or its call does not return. -/
def Setup.drive (s : Setup) (k : κ) : List (Event × κ) → Option (Engine κ)
  | [] => some (s.engine k)
  | (event, k') :: steps =>
      match s.drive k steps with
      | none => none
      | some e =>
          if Kernel.now e.kernel ≤ Kernel.now k' ∧
              (event = .wake ∨ Outstanding (steps.map Prod.fst) e.asked event) then
            match Engine.call event ⟨{ e with kernel := k' }, #[]⟩ with
            | .ok _ t => some t.state
            | .error _ _ => none
          else none

/-- The last of the events was handed over as it may be, and its call returned. -/
theorem Setup.of_drive_cons {s : Setup} {k : κ} {step : Event × κ} {steps : List (Event × κ)}
    {e : Engine κ} (h : s.drive k (step :: steps) = some e) :
    ∃ e' t, s.drive k steps = some e' ∧ Kernel.now e'.kernel ≤ Kernel.now step.2 ∧
      (step.1 = .wake ∨ Outstanding (steps.map Prod.fst) e'.asked step.1) ∧
      Engine.call step.1 ⟨{ e' with kernel := step.2 }, #[]⟩ = .ok () t ∧ t.state = e := by
  rw [drive] at h
  split at h
  next => cases h
  next e' he' =>
    split at h
    next hallowed =>
      split at h
      next t ht =>
        cases h
        exact ⟨e', t, he', hallowed.1, hallowed.2, ht, rfl⟩
      next => cases h
    next => cases h

/-- What is computed so is a run. -/
theorem Run.of_drive {s : Setup} {k : κ} : ∀ {steps : List (Event × κ)} {e : Engine κ},
    s.drive k steps = some e → Run s (steps.map fun step => ⟨step.1, none⟩) e := by
  intro steps
  induction steps with
  | nil =>
      intro e h
      cases h
      exact .start k
  | cons step steps ih =>
      intro e h
      obtain ⟨e', t, he', later, conforms, call, rfl⟩ := Setup.of_drive_cons h
      refine .returns (ih he') later ?_ call
      rwa [List.map_map]

/-- A computation, and a transfer of its result. -/
def Setup.pair : Setup :=
  .ofTrace {} [
    { id := 1, name := "compute", kind := .compute, dataDeps := [], ctrlDeps := []
      attributes := { runtime := some 3 } },
    { id := 2, name := "send", kind := .send, dataDeps := [1], ctrlDeps := [1]
      attributes := { commDst := some 1, commSize := some 8 } }]

end TraceReplay
