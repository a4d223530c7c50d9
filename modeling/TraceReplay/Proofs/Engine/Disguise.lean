/-
**Engines that cannot be told apart.**

Two runs are compared whose traces, configurations or tensor traffic differ: the engine of one is that of
the other in a *disguise*.  A disguise fits if the engine makes the same of every node, and closes records
and sums up the run alike.  If moreover nodes find slots in disguise exactly when they do without, then
every action of the engine in disguise mirrors what the engine does, and so does a whole run.

Reasons to stop can be excused.  Where the engine stops for one of them nothing is said of the engine in
disguise.

Main definitions:

* `Workload.decision` — what is made of a node;
* `Begins` — the drain of an event starts;
* `Disguise`, `Disguise.engine` — other nodes, another configuration and other tensor traffic;
* `Disguise.Fits`, `Disguise.FindsAlike` — the engine does not notice the disguise;
* `Setup.Rests`, `Setup.Visits` — the moments of a whole run.

Main results:

* `Disguise.fits_ofNodes_of_closes`, `Disguise.fits_ofNodes` — when nodes may be replaced;
* `Disguise.Fits.mirrors_drain`, `Disguise.Fits.mirrors_call` — drains and calls in disguise;
* `Disguise.Fits.mirrors_run` — a whole run in disguise.
-/

import TraceReplay.Proofs.Blind
import TraceReplay.Proofs.Engine.Run
import TraceReplay.Proofs.Graph.OtherNodes
import TraceReplay.Replay

set_option relaxedAutoImplicit false
set_option autoImplicit false

namespace TraceReplay

open Relation
open TraceReplay.Action

/-! ### What is made of a node -/

namespace Workload

/-- What is made of a node: its plan, where an error that is forgiven skips the node. -/
def decision (w : Workload) (n : Node) : Except Stop Plan :=
  match w.planOf n with
  | .error (.error e) => if w.forgives e then .ok .skip else .error (.error e)
  | plan => plan

theorem skips_iff_decision {w : Workload} {n : Node} : w.Skips n ↔ w.decision n = .ok .skip := by
  rw [Skips, decision]
  split
  next e h =>
    rw [h]
    split
    next hforgives => exact ⟨fun _ => rfl, fun _ => .inr ⟨e, rfl, hforgives⟩⟩
    next hforgives =>
      refine ⟨?_, fun hdecision => by cases hdecision⟩
      rintro (hplan | ⟨x, hx, hforgiven⟩)
      · cases hplan
      · cases hx
        exact absurd hforgiven hforgives
  next hplan =>
    refine ⟨?_, .inl⟩
    rintro (h | ⟨e, he, -⟩)
    · exact h
    · exact absurd he (hplan e)

/-- It depends on the configuration and the tensor sizes only. -/
theorem decision_congr {w w' : Workload} (config : w'.config = w.config)
    (sizes : w'.adapter.tensorSizeOf w'.graph = w.adapter.tensorSizeOf w.graph) (n : Node) :
    w'.decision n = w.decision n := by
  have hplan : w'.planOf n = w.planOf n := by rw [planOf, planOf, config, sizes]
  have hforgives : w'.forgives = w.forgives := by
    funext e
    rw [forgives, forgives, config]
  rw [decision, decision, hplan, hforgives]

end Workload

theorem Coherent.decision_eq {κ : Type} {s : Setup} {m : Moment κ} (h : Coherent s m)
    (ready : List NodeId) (n : Node) :
    (m.workload.withReady ready).decision n = s.workload.decision n := by
  have hforgives : (m.workload.withReady ready).forgives = s.workload.forgives :=
    funext h.forgives_eq
  rw [Workload.decision, Workload.decision, h.planOf_eq, hforgives]

namespace Engine

variable {κ : Type} {e : Engine κ} {j : Array Entry} {E : Stop → Logged (Engine κ) → Prop}

/-- Planning a node comes to what is made of it. -/
theorem ends_decision {Q : Plan → Logged (Engine κ) → Prop} {n : Node}
    (ok : ∀ plan j', e.workload.decision n = .ok plan → Q plan ⟨e, j'⟩)
    (stops : ∀ stop, e.workload.decision n = .error stop → E stop ⟨e, j⟩) :
    Ends (planOf n) ⟨e, j⟩ Q E := by
  refine ends_planOf (fun plan h => ok plan j ?_) (fun x j' h hx => ok .skip j' ?_)
    (fun x h hx => stops _ ?_) fun f h => stops _ ?_
  · simp only [Workload.decision, h]
  · simp only [Workload.decision, h, hx, ↓reduceIte]
  · simp only [Workload.decision, h, hx, Bool.false_eq_true, ↓reduceIte]
  · simp only [Workload.decision, h]

end Engine

/-! ### The start of a drain -/

/-- The drain of an event starts. -/
inductive Begins {κ : Type} [Kernel κ] : Event → Moment κ → Moment κ → Prop
  | wake {m : Moment κ} : Begins .wake m { m with delivered := .wake :: m.delivered }
  | complete {event : Event} {m m₁ m₂ : Moment κ} (closes : Closes event m m₁) (frees : Frees m₁ m₂) :
      Begins event m m₂

theorem Begins.coherent {κ : Type} [Kernel κ] {s : Setup} {event : Event} {m m' : Moment κ}
    (begins : Begins event m m') (h : Coherent s m) : Coherent s m' ∧ m'.unfreed = m.unfreed := by
  cases begins with
  | wake => exact ⟨h.move (.wake m), rfl⟩
  | complete closes frees =>
      refine ⟨(h.close closes).free frees, ?_⟩
      obtain ⟨-, -, -⟩ := closes
      obtain ⟨closed, -, -⟩ := frees
      exact (List.cons.inj closed).2.symm

/-! ### Disguises -/

/-- Other nodes, another configuration and other tensor traffic. -/
structure Disguise where
  node : Node → Node
  config : EngineConfig → EngineConfig
  memory : Option Tracker → Option Tracker
  report : Report → Report

namespace Disguise

variable {κ : Type} (d : Disguise)

/-- Statistics in disguise. -/
def statistics (s : Statistics) : Statistics :=
  { s with memory := d.memory s.memory, report := s.report.map d.report }

/-- The state of an engine in disguise. -/
def workload (w : Workload) : Workload :=
  { w with
    config := d.config w.config
    graph := w.graph.mapNodes d.node
    statistics := d.statistics w.statistics }

/-- An engine in disguise. -/
def engine (e : Engine κ) : Engine κ := { e with workload := d.workload e.workload }

/-- In the drain that starts here a node finds a slot in disguise exactly if it does without. -/
def FindsAlike [Kernel κ] (m : Moment κ) : Prop :=
  ∀ m' id n rest, ReflTransGen Offer m m' → m'.Front id n rest →
    m'.workload.pool.hasRoom (d.node n).nodeClass = m'.workload.pool.hasRoom n.nodeClass

/-- **The engine does not notice the disguise**, as long as it finds the same slots free. -/
structure Fits (s : Setup) (κ : Type) [Kernel κ] (excused : Stop → Prop) : Prop where
  id : ∀ n, (d.node n).id = n.id
  tensorSize : ∀ n, (d.node n).tensorSize = n.tensorSize
  roofline : (d.config s.config).roofline = s.config.roofline
  /-- The same is made of every node, unless the reason is excused. -/
  decision : ∀ id n, s.graph.lookup id = some n →
    (d.workload s.workload).decision (d.node n) = s.workload.decision n ∨
      ∃ stop, s.workload.decision n = .error stop ∧ excused stop
  /-- Nodes that are not skipped keep their class. -/
  nodeClass : ∀ id n, s.graph.lookup id = some n → ¬s.workload.Skips n →
    (d.node n).nodeClass = n.nodeClass
  opens : ∀ memory id tick, d.memory (memory.map fun tracker => tracker.recordStart id tick) =
    (d.memory memory).map fun tracker => tracker.recordStart id tick
  closes : ∀ (e : Engine κ) (n : Node) (tick : Tick), e.workload.config = s.config →
    s.graph.lookup n.id = some n → ¬s.workload.Skips n →
      Mirrors d.engine excused (Engine.recordEnd n tick) (Engine.recordEnd (d.node n) tick) e
        fun _ _ _ => True
  summary : ∀ statistics, Mirrors d.statistics excused Statistics.summarize Statistics.summarize
    statistics fun _ _ _ => True

open Engine

variable {d} {s : Setup} {excused : Stop → Prop} {α : Type} {e : Engine κ}

/-! ### Parts of the state -/

theorem mirrors_workloadOf {Q : Workload → Workload → Engine κ → Prop}
    (h : Q e.workload (d.workload e.workload) e) :
    Mirrors d.engine excused workloadOf workloadOf e Q :=
  mirrors_bind (mirrors_get (mirrors_pure h))

theorem mirrors_updateWorkload {Q : Unit → Unit → Engine κ → Prop} {g g' : Workload → Workload}
    (hg : g' (d.workload e.workload) = d.workload (g e.workload))
    (h : Q () () { e with workload := g e.workload }) :
    Mirrors d.engine excused (updateWorkload g) (updateWorkload g') e Q :=
  mirrors_update (by simp only [engine, hg]) h

theorem mirrors_onPool {Q : α → α → Engine κ → Prop} {act : Action Fault SlotPool α}
    (blind : Blind act) (h : ∀ a pool, Q a a { e with workload := { e.workload with pool } }) :
    Mirrors d.engine excused (onPool act) (onPool act) e Q :=
  mirrors_on rfl (fun _ => rfl) ((blind.stopAs.mirrors _).imp fun a _ pool ha => ha ▸ h a pool)

theorem mirrors_onGatherings {Q : α → α → Engine κ → Prop} {act : Action Fault Gatherings α}
    (blind : Blind act)
    (h : ∀ a gatherings, Q a a { e with workload := { e.workload with gatherings } }) :
    Mirrors d.engine excused (onGatherings act) (onGatherings act) e Q :=
  mirrors_on rfl (fun _ => rfl)
    ((blind.stopAs.mirrors _).imp fun a _ gatherings ha => ha ▸ h a gatherings)

theorem mirrors_onKernel {Q : α → α → Engine κ → Prop} {act : Action Fault κ α} (blind : Blind act)
    (h : ∀ a kernel, Q a a { e with kernel }) :
    Mirrors d.engine excused (onKernel act) (onKernel act) e Q :=
  mirrors_on rfl (fun _ => rfl) ((blind.stopAs.mirrors _).imp fun a _ kernel ha => ha ▸ h a kernel)

theorem mirrors_check {c c' : NodeClass} {Q : Bool → Bool → Engine κ → Prop}
    (room : e.workload.pool.hasRoom c' = e.workload.pool.hasRoom c)
    (h : Q (e.workload.pool.hasRoom c) (e.workload.pool.hasRoom c) e) :
    Mirrors d.engine excused (onPool (SlotPool.check c)) (onPool (SlotPool.check c')) e Q := by
  refine fun j j' => ⟨rfl, ?_⟩
  show Q (e.workload.pool.hasRoom c) (e.workload.pool.hasRoom c') e
  rw [room]
  exact h

theorem mirrors_changeGraph {Q : Unit → Unit → Engine κ → Prop} {g g' : Graph → Except Fault Graph}
    (hg : ∀ graph : Graph, g' (graph.mapNodes d.node) = (g graph).map (Graph.mapNodes d.node))
    (h : ∀ graph, Q () () { e with workload := { e.workload with graph } }) :
    Mirrors d.engine excused (changeGraph g) (changeGraph g') e Q := by
  refine mirrors_bind (mirrors_workloadOf ?_)
  show Mirrors _ _ _ (Action.lift (orFault (g' (e.workload.graph.mapNodes d.node))) >>= _) _ _
  rw [hg]
  cases g e.workload.graph with
  | error f => exact mirrors_bind (mirrors_throw _)
  | ok graph => exact mirrors_bind (mirrors_pure (mirrors_updateWorkload rfl (h graph)))

theorem mirrors_lookup {Q : Node → Node → Engine κ → Prop} {id : NodeId}
    (h : ∀ n, e.workload.graph.lookup id = some n → Q n (d.node n) e) :
    Mirrors d.engine excused (lookup id) (lookup id) e Q := by
  refine mirrors_bind (mirrors_workloadOf ?_)
  simp only [workload, Graph.lookup_mapNodes]
  cases hfound : e.workload.graph.lookup id with
  | none => exact mirrors_throw _
  | some n => exact mirrors_pure (h n hfound)

theorem mirrors_traceLine {entry entry' : Nat → Entry} {Q : Unit → Unit → Engine κ → Prop}
    (h : Q () () e) : Mirrors d.engine excused (traceLine entry) (traceLine entry') e Q := by
  intro j j'
  refine ends_traceLine fun _ => ?_
  exact ends_traceLine fun _ => ⟨rfl, h⟩

theorem mirrors_takeReady {Q : Option NodeId → Option NodeId → Engine κ → Prop}
    (empty : e.workload.graph.ready = [] → Q none none e)
    (front : ∀ id rest, e.workload.graph.ready = id :: rest →
      Q (some id) (some id) { e with workload := e.workload.withReady rest }) :
    Mirrors d.engine excused takeReady takeReady e Q := by
  refine mirrors_bind (mirrors_workloadOf ?_)
  simp only [workload, Graph.mapNodes, Graph.takeReady?]
  cases hready : e.workload.graph.ready with
  | nil => exact mirrors_pure (empty hready)
  | cons id rest =>
      exact mirrors_bind (mirrors_updateWorkload rfl (mirrors_pure (front id rest hready)))

theorem mirrors_handBack (ids : List NodeId) :
    Mirrors d.engine excused (handBack ids : Act κ Unit) (handBack ids) e fun _ _ _ => True := by
  refine mirrors_updateWorkload ?_ trivial
  simp only [foldl_pushBack]
  rfl

theorem mirrors_noteReport (statistics : Statistics) :
    Mirrors d.statistics excused Statistics.noteReport Statistics.noteReport statistics
      fun _ _ _ => True := by
  intro j j'
  refine ends_forM_note _ fun _ => ?_
  exact ends_forM_note _ fun _ => ⟨rfl, trivial⟩

theorem mirrors_arrive (event : Event) :
    Mirrors d.engine excused (arrive event : Act κ (Option (NodeId × NodeClass))) (arrive event) e
      fun back back' _ => back' = back := by
  cases event with
  | wake => exact mirrors_pure rfl
  | collectiveFinished handle =>
      exact mirrors_onGatherings (Gatherings.blind_complete handle) fun _ _ => rfl
  | nodeFinished token | packetSent token | packetReceived token =>
      refine mirrors_bind (mirrors_workloadOf ?_)
      refine mirrors_bind (mirrors_lift fun _ _ => ?_)
      exact mirrors_bind (mirrors_updateWorkload rfl (mirrors_pure rfl))

variable [Kernel κ]

theorem mirrors_now {Q : Tick → Tick → Engine κ → Prop}
    (h : Q (Kernel.now e.kernel) (Kernel.now e.kernel) e) : Mirrors d.engine excused now now e Q :=
  mirrors_bind (mirrors_get (mirrors_pure h))

/-! ### Requests -/

section

variable (blind : Kernel.Blind κ)

include blind in
theorem mirrors_request (id : NodeId) (c : NodeClass) (operation : Operation) :
    Mirrors d.engine excused (request id c operation : Act κ Unit) (request id c operation) e
      fun _ _ _ => True := by
  refine mirrors_bind (mirrors_workloadOf ?_)
  refine mirrors_bind (mirrors_updateWorkload rfl ?_)
  refine mirrors_bind (mirrors_onKernel (blind.start _ _) fun _ _ => ?_)
  exact mirrors_update rfl trivial

include blind in
theorem mirrors_gather (id : NodeId) (c : NodeClass) (gathering : Gathering) :
    Mirrors d.engine excused (gather id c gathering : Act κ Unit) (gather id c gathering) e
      fun _ _ _ => True := by
  refine mirrors_bind (mirrors_onKernel (blind.gather _) fun handle _ => ?_)
  refine mirrors_bind (mirrors_update rfl ?_)
  refine mirrors_bind (mirrors_workloadOf ?_)
  refine mirrors_bind (mirrors_lift fun _ _ => ?_)
  exact mirrors_updateWorkload rfl trivial

end

namespace Fits

variable (fits : d.Fits s κ excused) (blind : Kernel.Blind κ)

include fits blind in
theorem mirrors_requestEstimated (config : e.workload.config = s.config) (id : NodeId) (c : NodeClass)
    (numOps ioSize : Nat) : Mirrors d.engine excused (requestEstimated id c numOps ioSize : Act κ Unit)
      (requestEstimated id c numOps ioSize) e fun _ _ _ => True := by
  refine mirrors_bind (mirrors_workloadOf ?_)
  have hroofline : (d.workload e.workload).config.roofline = e.workload.config.roofline := by
    rw [config, ← fits.roofline, ← config]
    rfl
  rw [hroofline]
  cases e.workload.config.roofline with
  | none => exact mirrors_throw _
  | some roofline =>
      refine mirrors_bind (mirrors_lift fun estimate _ => ?_)
      refine mirrors_bind (mirrors_workloadOf ?_)
      have hrecord : (d.workload e.workload).statistics.recordEstimate id estimate =
          (e.workload.statistics.recordEstimate id estimate).map d.statistics := by
        simp only [Statistics.recordEstimate, workload, statistics]
        cases e.workload.statistics.records.find? id <;> rfl
      rw [hrecord]
      cases e.workload.statistics.recordEstimate id estimate with
      | error f => exact mirrors_bind (mirrors_throw _)
      | ok statistics =>
          refine mirrors_bind (mirrors_pure ?_)
          refine mirrors_bind (mirrors_updateWorkload rfl ?_)
          exact mirrors_request blind _ _ _

include fits blind in
theorem mirrors_dispatch (config : e.workload.config = s.config) (id : NodeId) (c : NodeClass)
    (plan : Plan) : Mirrors d.engine excused (dispatch id c plan : Act κ Unit) (dispatch id c plan) e
      fun _ _ _ => True := by
  cases plan with
  | skip => exact mirrors_throw _
  | operation operation => exact mirrors_request blind id c operation
  | roofline numOps ioSize => exact fits.mirrors_requestEstimated blind config id c numOps ioSize
  | collective kind size involvedDims priority =>
      exact mirrors_bind (mirrors_workloadOf (mirrors_gather blind id c _))
  | timedCollective duration => exact mirrors_gather blind id c _

/-! ### Issuing -/

include fits in
theorem statistics_recordStart (statistics : Statistics) (id : NodeId) (t : OperatorType)
    (tick : Tick) :
    d.statistics (statistics.recordStart id t tick) =
      (d.statistics statistics).recordStart id t tick := by
  simp only [Disguise.statistics, Statistics.recordStart]
  split
  · rfl
  · rw [fits.opens]

include fits in
theorem mirrors_skip (n : Node) (tick : Tick) :
    Mirrors d.engine excused (skip n tick : Act κ Unit) (skip (d.node n) tick) e
      fun _ _ _ => True := by
  have hstart := fits.statistics_recordStart e.workload.statistics n.id .invalid tick
  rw [skip, skip, fits.id]
  refine mirrors_bind (mirrors_updateWorkload (by simp only [workload, hstart]) ?_)
  -- closing a record just opened for a node that is skipped looks at nothing but its id
  have hclose : Mirrors d.statistics excused (Statistics.recordEnd n tick)
      (Statistics.recordEnd (d.node n) tick)
      (e.workload.statistics.recordStart n.id .invalid tick) fun _ _ _ => True := by
    intro j j'
    refine ends_recordEnd_skip ?_
    rw [hstart, ← fits.id n]
    exact ends_recordEnd_skip ⟨rfl, trivial⟩
  refine mirrors_bind (mirrors_on rfl (fun _ => rfl) (hclose.imp fun _ _ _ _ => ?_))
  refine mirrors_bind (mirrors_changeGraph (Graph.freeDependents_mapNodes · n.id) fun _ => ?_)
  exact mirrors_changeGraph (fun graph => congrArg _ (graph.remove_mapNodes n.id fits.tensorSize))
    fun _ => trivial

include fits in
/-- Also in disguise the decision about a node does not change during a run. -/
theorem decision_workload {m : Moment κ} (h : Coherent s m) (ready : List NodeId) (n : Node) :
    (d.workload (m.workload.withReady ready)).decision n = (d.workload s.workload).decision n := by
  obtain ⟨-, group, hw⟩ := s.created_iff
  refine Workload.decision_congr ?_ ?_ n
  · rw [hw]
    exact congrArg d.config h.config
  · rw [hw]
    simp only [workload, Adapter.tensorSizeOf_mapNodes fits.tensorSize]
    show m.workload.adapter.tensorSizeOf (m.workload.withReady ready).graph = _
    rw [h.adapter]
    exact funext h.lifecycle.sizes

include fits in
theorem mirrors_planOf {m : Moment κ} (h : Coherent s m) {id : NodeId} {n : Node} {rest : List NodeId}
    (found : s.graph.lookup id = some n) {Q : Plan → Plan → Engine κ → Prop}
    (hQ : ∀ plan, s.workload.decision n = .ok plan →
      Q plan plan { m.toEngine with workload := m.workload.withReady rest }) :
    Mirrors d.engine excused (planOf n) (planOf (d.node n))
      { m.toEngine with workload := m.workload.withReady rest } Q := by
  have hleft := h.decision_eq rest n
  have hright := fits.decision_workload h rest (d.node n)
  intro j j'
  rcases fits.decision id n found with hsame | ⟨stop, hstop, hexcused⟩
  · rw [hsame] at hright
    refine ends_decision (fun plan j₁ hplan => ?_) fun stop hstop => ?_
    · rw [hleft] at hplan
      refine ends_decision (fun plan' j₂ hplan' => ?_) fun stop hstop => ?_
      · cases hplan.symm.trans (hright.symm.trans hplan')
        exact ⟨rfl, hQ plan hplan⟩
      · cases hplan.symm.trans (hright.symm.trans hstop)
    · rw [hleft] at hstop
      refine .inr (ends_decision (fun plan' j₂ hplan' => ?_) fun stop' hstop' => ?_)
      · cases hstop.symm.trans (hright.symm.trans hplan')
      · cases hstop.symm.trans (hright.symm.trans hstop')
        exact ⟨rfl, rfl⟩
  · refine ends_decision (fun plan j₁ hplan => ?_) fun stop' hstop' => .inl ?_
    · cases hstop.symm.trans (hleft.symm.trans hplan)
    · cases hstop.symm.trans (hleft.symm.trans hstop')
      exact hexcused

include fits blind in
theorem mirrors_issue {m : Moment κ} (h : Coherent s m) {id : NodeId} {n : Node} {rest : List NodeId}
    (front : m.Front id n rest) :
    Mirrors d.engine excused (issue id : Act κ Unit) (issue id)
      { m.toEngine with workload := m.workload.withReady rest } fun _ _ _ => True := by
  obtain ⟨hn, -, -, -⟩ := h.front front
  refine mirrors_bind (mirrors_lookup fun n' hn' => ?_)
  cases front.found.symm.trans hn'
  refine mirrors_bind (fits.mirrors_planOf h hn fun plan hplan => ?_)
  refine mirrors_bind (mirrors_now ?_)
  refine mirrors_bind (mirrors_traceLine ?_)
  refine mirrors_ite Iff.rfl (fun _ => fits.mirrors_skip n _) fun hskip => ?_
  -- a node that is not skipped keeps its class
  have hkeeps : ¬s.workload.Skips n := by
    rw [Workload.skips_iff_decision, hplan]
    exact fun heq => hskip (Except.ok.inj heq)
  rw [fits.nodeClass id n hn hkeeps]
  refine mirrors_bind (mirrors_onPool (SlotPool.blind_occupy _ _) fun _ pool => ?_)
  refine mirrors_bind (mirrors_updateWorkload ?_ ?_)
  · simp only [workload, fits.statistics_recordStart]
  · refine fits.mirrors_dispatch blind ?_ id _ plan
    exact h.config

/-! ### Drains -/

include fits blind in
theorem mirrors_drainFrom {fuel : Nat} : ∀ {m : Moment κ} {blocked : List NodeId}, Coherent s m →
    d.FindsAlike m → Mirrors d.engine excused (drainFrom fuel blocked : Act κ Unit)
      (drainFrom fuel blocked) m.toEngine fun _ _ _ => True := by
  induction fuel with
  | zero => exact fun _ _ => mirrors_handBack _
  | succ fuel ih =>
      intro m blocked h alike
      have onward {m' : Moment κ} (hoffer : Offer m m') (blocked' : List NodeId) :
          Mirrors d.engine excused (drainFrom fuel blocked' : Act κ Unit) (drainFrom fuel blocked')
            m'.toEngine fun _ _ _ => True :=
        ih (h.offer hoffer) fun m'' id n rest hoffers => alike m'' id n rest (.head hoffer hoffers)
      refine mirrors_bind (mirrors_takeReady (fun _ => mirrors_handBack _) fun id rest queue => ?_)
      refine mirrors_bind (mirrors_lookup fun n found => ?_)
      have front : m.Front id n rest := ⟨queue, found⟩
      refine mirrors_bind (mirrors_check (alike m id n rest .refl front) ?_)
      refine mirrors_ite Iff.rfl (fun room => ?_) fun full => ?_
      · have hissue := (fits.mirrors_issue blind h front).and fun j => ends_issue front room
        refine mirrors_bind (hissue.imp ?_)
        rintro _ _ _ ⟨-, j, m', hoffer, -, rfl⟩
        exact onward hoffer blocked
      · exact onward (.block front (Bool.eq_false_iff.2 full)) (blocked ++ [id])

include fits blind in
/-- **A drain in disguise.** -/
theorem mirrors_drain {m : Moment κ} (h : Coherent s m) (alike : d.FindsAlike m) :
    Mirrors d.engine excused (drain : Act κ Unit) drain m.toEngine fun _ _ _ => True :=
  mirrors_bind (mirrors_workloadOf (fits.mirrors_drainFrom blind h alike))

/-! ### Completions -/

include fits in
theorem mirrors_retire {event : Event} {m : Moment κ} (h : Coherent s m) {id : NodeId} {c : NodeClass}
    {w : Workload} (arrives : Arrives m.workload event id c w) :
    Mirrors d.engine excused (retire id c : Act κ Unit) (retire id c)
      { m.toEngine with workload := w } fun _ _ _ => True := by
  obtain ⟨hgraph, -, hconfig⟩ := arrives.keeps
  refine mirrors_bind (mirrors_now ?_)
  refine mirrors_bind (mirrors_lookup fun n found => ?_)
  refine mirrors_bind (mirrors_traceLine ?_)
  -- the node of an event is in flight, and so it was not skipped
  obtain ⟨hn, hid, hrunning, -⟩ := h.arriving arrives (hgraph ▸ found)
  have hcloses := fits.closes { m.toEngine with workload := w } n (Kernel.now m.kernel)
    (hconfig.trans h.config) (hid.symm ▸ hn) (h.not_skips_of_running hrunning hn)
  refine mirrors_bind (hcloses.imp fun _ _ _ _ => ?_)
  refine mirrors_bind (mirrors_onPool (SlotPool.blind_release _ _) fun _ _ => ?_)
  exact mirrors_changeGraph (Graph.freeDependents_mapNodes · id) fun _ => trivial

include fits blind in
theorem mirrors_finishNode {event : Event} {m : Moment κ} (h : Coherent s m)
    (alike : ∀ m', Begins event m m' → d.FindsAlike m') {id : NodeId} {c : NodeClass} {w : Workload}
    (arrives : Arrives m.workload event id c w) :
    Mirrors d.engine excused (finishNode id c : Act κ Unit) (finishNode id c)
      { m.toEngine with workload := w } fun _ _ _ => True := by
  rw [finishNode_eq]
  have hretire := (fits.mirrors_retire h arrives).and fun j => ends_retire arrives
  refine mirrors_bind (hretire.imp ?_)
  rintro _ _ _ ⟨-, j, m₁, m₂, rest, closes, frees, -, rfl⟩
  have hdrain := fits.mirrors_drain blind ((h.close closes).free frees)
    (alike m₂ (.complete closes frees))
  refine mirrors_bind (hdrain.imp fun _ _ _ _ => ?_)
  exact mirrors_changeGraph (fun graph => congrArg _ (graph.remove_mapNodes id fits.tensorSize))
    fun _ => trivial

include fits blind in
theorem mirrors_turn {event : Event} {m : Moment κ} (h : Coherent s m)
    (alike : ∀ m', Begins event m m' → d.FindsAlike m') :
    Mirrors d.engine excused (turn event : Act κ Unit) (turn event) m.toEngine fun _ _ _ => True := by
  by_cases hwake : event = .wake
  · subst hwake
    exact fits.mirrors_drain (m := { m with delivered := .wake :: m.delivered }) blind
      (h.move (.wake m)) (alike _ .wake)
  · rw [turn_eq hwake]
    refine mirrors_bind (((mirrors_arrive event).and fun j => ends_arrive hwake).imp ?_)
    rintro _ back e ⟨rfl, j, hback⟩
    cases back with
    | none => exact mirrors_pure trivial
    | some back =>
        obtain ⟨id, c⟩ := back
        obtain ⟨w, arrives, rfl⟩ := hback
        exact fits.mirrors_finishNode blind h alike arrives

/-! ### Calls -/

include fits in
theorem mirrors_checkTermination :
    Mirrors d.engine excused (checkTermination : Act κ Unit) checkTermination e
      fun _ _ _ => True := by
  refine mirrors_bind (mirrors_workloadOf ?_)
  simp only [workload, Adapter.hasRemainingWork_mapNodes]
  refine mirrors_ite Iff.rfl (fun _ => mirrors_pure trivial) fun _ => ?_
  refine mirrors_bind (mirrors_now ?_)
  refine mirrors_bind (mirrors_updateWorkload rfl ?_)
  refine mirrors_bind (mirrors_note ?_)
  refine mirrors_bind (mirrors_on rfl (fun _ => rfl) ((fits.summary _).imp fun _ _ _ _ => ?_))
  exact mirrors_on rfl (fun _ => rfl) (mirrors_noteReport _)

include fits blind in
/-- **A call in disguise.** -/
theorem mirrors_call {event : Event} {m : Moment κ} (h : Coherent s m)
    (alike : ∀ m', Begins event m m' → d.FindsAlike m') :
    Mirrors d.engine excused (call event : Act κ Unit) (call event) m.toEngine fun _ _ _ => True := by
  rw [call_eq]
  refine mirrors_bind (mirrors_workloadOf ?_)
  refine mirrors_ite Iff.rfl (fun _ => mirrors_pure trivial) fun _ => ?_
  exact mirrors_bind ((fits.mirrors_turn blind h alike).imp fun _ _ _ _ =>
    fits.mirrors_checkTermination)

end Fits

/-! ### Disguises of the nodes -/

/-- Other nodes, and nothing else. -/
def ofNodes (ν : Node → Node) : Disguise := ⟨ν, id, id, id⟩

omit [Kernel κ] in
theorem statistics_ofNodes (ν : Node → Node) (st : Statistics) : (ofNodes ν).statistics st = st := by
  simp [Disguise.statistics, ofNodes]

omit [Kernel κ] in
/-- Closing a record in a disguise in which the same errors are forgiven. -/
theorem mirrors_recordEnd {n n' : Node} {tick : Tick}
    (forgives : ∀ w x, (d.workload w).forgives x = w.forgives x)
    (h : Mirrors d.statistics (fun _ => False) (Statistics.recordEnd n tick)
      (Statistics.recordEnd n' tick) e.workload.statistics fun _ _ _ => True) :
    Mirrors d.engine excused (Engine.recordEnd n tick : Act κ Unit) (Engine.recordEnd n' tick) e
      fun _ _ _ => True := by
  refine mirrors_bind (mirrors_outcome (mirrors_on rfl (fun _ => rfl) (h.imp fun _ _ _ _ => ?_))
    fun j => ends_iff.2 ⟨fun _ _ _ => trivial, fun stop t _ => ?_⟩)
  · exact mirrors_pure trivial
  · cases stop with
    | fault f => exact mirrors_throw _
    | error x =>
        refine mirrors_bind (mirrors_workloadOf ?_)
        rw [forgives]
        exact mirrors_ite Iff.rfl (fun _ => mirrors_note trivial) fun _ => mirrors_throw _

/-- **Nodes may be replaced** by others with the same id and tensor size of which the same is made, if
those that are not skipped keep their class, and their records are closed alike. -/
theorem fits_ofNodes_of_closes {ν : Node → Node} (hid : ∀ n, (ν n).id = n.id)
    (tensorSize : ∀ n, (ν n).tensorSize = n.tensorSize)
    (decision : ∀ id n, s.graph.lookup id = some n →
      s.workload.decision (ν n) = s.workload.decision n)
    (nodeClass : ∀ id n, s.graph.lookup id = some n → ¬s.workload.Skips n →
      (ν n).nodeClass = n.nodeClass)
    (closes : ∀ (e : Engine κ) (n : Node) (tick : Tick), e.workload.config = s.config →
      s.graph.lookup n.id = some n → ¬s.workload.Skips n →
        Mirrors (ofNodes ν).engine (fun _ => False) (Engine.recordEnd n tick)
          (Engine.recordEnd (ν n) tick) e fun _ _ _ => True) :
    (ofNodes ν).Fits s κ fun _ => False := by
  have hsame : (ofNodes ν).statistics = id := funext (statistics_ofNodes ν)
  have hdecision (n : Node) :
      ((ofNodes ν).workload s.workload).decision (ν n) = s.workload.decision (ν n) := by
    refine Workload.decision_congr ?_ ?_ (ν n)
    · rfl
    · exact Adapter.tensorSizeOf_mapNodes tensorSize s.workload.adapter s.workload.graph
  exact {
    id := hid
    tensorSize, nodeClass, closes
    roofline := rfl
    decision := fun id n hn => .inl ((hdecision n).trans (decision id n hn))
    opens := fun _ _ _ => rfl
    summary := fun st => by
      rw [hsame]
      exact (Statistics.blind_summarize.mirrors st).imp fun _ _ _ _ => trivial }

omit [Kernel κ] in
/-- Records are closed alike if the node keeps its tensor traffic. -/
theorem mirrors_recordEnd_ofNodes {ν : Node → Node} {n n' : Node} {tick : Tick}
    (traffic : Statistics.recordEnd n' = Statistics.recordEnd n) :
    Mirrors (ofNodes ν).engine excused (Engine.recordEnd n tick : Act κ Unit)
      (Engine.recordEnd n' tick) e fun _ _ _ => True := by
  refine mirrors_recordEnd (fun _ _ => rfl) ?_
  rw [traffic, show (ofNodes ν).statistics = id from funext (statistics_ofNodes ν)]
  exact ((Statistics.blind_recordEnd n tick).mirrors _).imp fun _ _ _ _ => trivial

/-- So they may be replaced if those that are not skipped keep their class and their tensor traffic. -/
theorem fits_ofNodes {ν : Node → Node} (hid : ∀ n, (ν n).id = n.id)
    (tensorSize : ∀ n, (ν n).tensorSize = n.tensorSize)
    (decision : ∀ id n, s.graph.lookup id = some n →
      s.workload.decision (ν n) = s.workload.decision n)
    (nodeClass : ∀ id n, s.graph.lookup id = some n → ¬s.workload.Skips n →
      (ν n).nodeClass = n.nodeClass)
    (traffic : ∀ id n, s.graph.lookup id = some n → ¬s.workload.Skips n →
      Statistics.recordEnd (ν n) = Statistics.recordEnd n) :
    (ofNodes ν).Fits s κ fun _ => False :=
  fits_ofNodes_of_closes hid tensorSize decision nodeClass fun _ n _ _ hn hkeeps =>
    mirrors_recordEnd_ofNodes (traffic n.id n hn hkeeps)

end Disguise

/-! ### Whole runs -/

/-- Moments at which a run on the analytical kernel rests between two events. -/
inductive Setup.Rests (s : Setup) (c : AnalyticalConfig) : Moment Analytical → Prop
  | fire {m m' : Moment Analytical} (turn : Turn .wake (s.moment { config := c }) m)
      (settles : Settles m m') : Rests s c m'
  | next {m m₁ m' : Moment Analytical} {event : Event} {k : Analytical} (rests : Rests s c m)
      (goesOn : m.workload.isFinished = false) (next : m.kernel.next? = some (event, k))
      (turn : Turn event { m with kernel := k } m₁) (settles : Settles m₁ m') : Rests s c m'

/-- Moments within the drains of that run. -/
inductive Setup.Visits (s : Setup) (c : AnalyticalConfig) : Moment Analytical → Prop
  | fire {m m' : Moment Analytical} (begins : Begins .wake (s.moment { config := c }) m)
      (offers : ReflTransGen Offer m m') : Visits s c m'
  | next {m m₁ m' : Moment Analytical} {event : Event} {k : Analytical} (rests : s.Rests c m)
      (goesOn : m.workload.isFinished = false) (next : m.kernel.next? = some (event, k))
      (begins : Begins event { m with kernel := k } m₁) (offers : ReflTransGen Offer m₁ m') :
      Visits s c m'

/-- When a run rests its parts fit together, and the children of all nodes that ended have been told. -/
theorem Setup.Rests.coherent {s : Setup} {c : AnalyticalConfig} {m : Moment Analytical}
    (h : s.Rests c m) : Coherent s m ∧ m.unfreed = [] := by
  have step {m m₁ m' : Moment Analytical} {event : Event} (h : Coherent s m ∧ m.unfreed = [])
      (turn : Turn event m m₁) (settles : Settles m₁ m') : Coherent s m' ∧ m'.unfreed = [] := by
    refine ⟨(h.1.moves turn.moves).settle settles, ?_⟩
    obtain ⟨-, -, hkeeps, -⟩ := turn.keeps
    cases settles <;> exact hkeeps.trans h.2
  induction h with
  | fire turn settles => exact step ⟨(AtRest.initial s _).coherent, rfl⟩ turn settles
  | @next m m₁ m' event k rests goesOn next turn settles ih =>
      exact step ⟨ih.1.withKernel k, ih.2⟩ turn settles

/-- The same holds within its drains. -/
theorem Setup.Visits.coherent {s : Setup} {c : AnalyticalConfig} {m : Moment Analytical}
    (h : s.Visits c m) : Coherent s m ∧ m.unfreed = [] := by
  have drain {m m₁ m' : Moment Analytical} {event : Event} (h : Coherent s m ∧ m.unfreed = [])
      (begins : Begins event m m₁) (offers : ReflTransGen Offer m₁ m') :
      Coherent s m' ∧ m'.unfreed = [] := by
    have hbegins := begins.coherent h.1
    refine ⟨hbegins.1.moves (Move.of_offers offers), ?_⟩
    exact (Offer.keeps_many offers).unfreed.trans (hbegins.2.trans h.2)
  cases h with
  | fire begins offers => exact drain ⟨(AtRest.initial s _).coherent, rfl⟩ begins offers
  | @next m m₁ m' event k rests goesOn next begins offers =>
      exact drain ⟨rests.coherent.1.withKernel k, rests.coherent.2⟩ begins offers

namespace Disguise.Fits

variable {d : Disguise} {s : Setup} {excused : Stop → Prop} {c : AnalyticalConfig}
variable (fits : d.Fits s Analytical excused)
variable (alike : ∀ m id n rest, s.Visits c m → m.Front id n rest →
  m.workload.pool.hasRoom (d.node n).nodeClass = m.workload.pool.hasRoom n.nodeClass)

include fits alike in
theorem mirrors_step {m : Moment Analytical} (rests : s.Rests c m)
    (goesOn : m.workload.isFinished = false) :
    Mirrors d.engine excused Replay.step Replay.step m.toEngine fun event event' e =>
      event' = event ∧ (event.isSome = true → ∃ m', s.Rests c m' ∧ m'.toEngine = e) := by
  refine mirrors_bind (mirrors_get ?_)
  simp only [engine]
  cases hnext : m.kernel.next? with
  | none => exact mirrors_pure ⟨rfl, fun hsome => by cases hsome⟩
  | some next =>
      obtain ⟨event, k⟩ := next
      refine mirrors_bind (mirrors_update rfl ?_)
      have hcall := fits.mirrors_call Analytical.blind (rests.coherent.1.withKernel k)
        fun m₁ begins m' id n rest offers => alike m' id n rest (.next rests goesOn hnext begins offers)
      refine mirrors_bind ((hcall.and fun j =>
        Engine.ends_call (m := { m with kernel := k }) (j := j) goesOn).imp ?_)
      rintro _ _ _ ⟨-, j, m₁, m', turn, settles, rfl⟩
      exact mirrors_pure ⟨rfl, fun _ => ⟨m', .next rests goesOn hnext turn settles, rfl⟩⟩

include fits alike in
theorem mirrors_finishWithin {fuel : Nat} : ∀ {m : Moment Analytical}, s.Rests c m →
    Mirrors d.engine excused (Replay.finishWithin fuel) (Replay.finishWithin fuel) m.toEngine
      fun _ _ _ => True := by
  induction fuel with
  | zero => exact fun _ => mirrors_pure trivial
  | succ fuel ih =>
      intro m rests
      refine mirrors_bind (mirrors_get ?_)
      refine mirrors_ite Iff.rfl (fun _ => mirrors_pure trivial) fun goesOn => ?_
      refine mirrors_bind ((fits.mirrors_step alike rests (Bool.eq_false_iff.2 goesOn)).imp ?_)
      rintro _ event _ ⟨rfl, hrests⟩
      cases event with
      | some event =>
          obtain ⟨m', hm', rfl⟩ := hrests rfl
          exact ih hm'
      | none =>
          simp only [engine, workload, Graph.remaining_mapNodes]
          exact mirrors_throw _

include fits alike in
/-- **A whole run in disguise.** -/
theorem mirrors_run :
    Mirrors d.engine excused Replay.run Replay.run (s.engine { config := c }) fun tick tick' _ =>
      tick' = tick := by
  have h := (AtRest.initial s { config := c : Analytical }).coherent
  have hunfinished := s.isFinished_moment { config := c : Analytical }
  have hfire := fits.mirrors_call Analytical.blind h fun m₁ begins m' id n rest offers =>
    alike m' id n rest (.fire begins offers)
  refine mirrors_bind ((hfire.and fun j => Engine.ends_call hunfinished).imp ?_)
  rintro _ _ _ ⟨-, j, m₁, m, turn, settles, rfl⟩
  refine mirrors_bind (mirrors_get ?_)
  refine mirrors_bind ((fits.mirrors_finishWithin alike (.fire turn settles)).imp fun _ _ _ _ => ?_)
  exact mirrors_bind (mirrors_get (mirrors_pure rfl))

end Disguise.Fits

end TraceReplay
