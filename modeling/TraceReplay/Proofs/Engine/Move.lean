/-
**What an engine does within a call.**

A call of the engine is a sequence of small moves: a node is put aside, skipped or issued, an operation
ends, its slot and its children are freed, the node is removed.  This module lists the moves, each with
the conditions under which the engine makes it and the exact state that it leads to, and the ways in
which a call can stop instead.  That the engine makes no others is shown in
`TraceReplay.Proofs.Engine.Simulation`; every invariant of the engine is then a fact about single moves.

Between two moves of one call some nodes are in no structure of the engine: a node that was found
blocked waits in the drain until it is handed back, a node that ended holds its slot until that is given
back.  Where a call stops early they stay there.  `Moment` keeps account of them.

Main definitions:

* `Moment`, `Moment.Loose` — an engine within a call, with the nodes that none of its structures holds;
* `Offer` — what a drain does with the node at the front of the queue;
* `Drains` — a whole drain: offers until the queue is empty, and the blocked nodes are handed back;
* `Closes`, `Frees`, `Removes` — the three parts of a completion;
* `Turn`, `Settles` — what an event does, and the check whether the run has ended;
* `Refuses`, `Halts` — how a drain and a call stop;
* `Move` — the union of all moves.

Main results:

* `Turn.moves` — what an event does is a sequence of moves.
-/

import Mathlib.Logic.Relation
import TraceReplay.Proofs.Memory.Traffic
import TraceReplay.Workload

set_option relaxedAutoImplicit false
set_option autoImplicit false

namespace TraceReplay

open Relation

/-! ### Parts of the state -/

/-- Takes a slot for a class, if it needs one. -/
def SlotPool.take (p : SlotPool) (c : NodeClass) : SlotPool :=
  match Resource.ofClass? c with
  | none => p
  | some r => { p with taken := p.taken.set r (p.taken.get r + 1) }

/-- Gives back the slot of a class, if it has one. -/
def SlotPool.giveBack (p : SlotPool) (c : NodeClass) : SlotPool :=
  match Resource.ofClass? c with
  | none => p
  | some r => { p with taken := p.taken.set r (p.taken.get r - 1) }

/-- Opens the record of a node that is issued. -/
def Statistics.openRecord (s : Statistics) (id : NodeId) (c : NodeClass) (tick : Tick)
    (metrics : Option Metrics) : Statistics :=
  { s.recordStart id (.ofClass c) tick with
    records := s.records.insert id { node := id, operatorType := .ofClass c, start := tick, metrics } }

/-- Writes the record of a node that is skipped. -/
def Statistics.skipRecord (s : Statistics) (id : NodeId) (tick : Tick) : Statistics :=
  { s with
    records := s.records.insert id
      { node := id, operatorType := .invalid, start := tick, finish := some tick } }

/-- `s'` is `s` with the record of a node closed; the tensor traffic of the node may have changed, if it
is tracked. -/
def Statistics.Closed (s : Statistics) (n : Node) (tick : Tick) (s' : Statistics) : Prop :=
  ∃ r memory, s.records.find? n.id = some r ∧ r.start ≤ tick ∧ Statistics.Spares n.id s.memory memory ∧
    s' = { s with records := s.records.insert n.id { r with finish := some tick }, memory }

namespace Workload

/-- The plan of a node in the present state. -/
def planOf (w : Workload) (n : Node) : Except Stop Plan :=
  Plan.ofNode w.config (w.adapter.tensorSizeOf w.graph) n n.nodeClass

/-- Whether a node is skipped: there is nothing to simulate, or a lenient run forgives what is wrong
with it. -/
def Skips (w : Workload) (n : Node) : Prop :=
  w.planOf n = .ok .skip ∨ ∃ e, w.planOf n = .error (.error e) ∧ w.forgives e = true

/-- The state with another queue. -/
def withReady (w : Workload) (ready : List NodeId) : Workload :=
  { w with graph := { w.graph with ready } }

/-- The state with a slot taken and a record opened for a node. -/
def opened (w : Workload) (id : NodeId) (c : NodeClass) (tick : Tick) (metrics : Option Metrics) :
    Workload :=
  { w with
    pool := w.pool.take c
    statistics := w.statistics.openRecord id c tick metrics }

end Workload

/-- Which operation a plan comes to, with what is recorded of its cost. -/
inductive Plan.Starts (roofline : Option Roofline) : Plan → Operation → Option Metrics → Prop
  | operation (operation : Operation) : Starts roofline (.operation operation) operation none
  | roofline {r : Roofline} {numOps ioSize : Nat} {estimate : Estimate} (model : roofline = some r)
      (costs : r.estimate numOps ioSize = .ok estimate) :
      Starts roofline (.roofline numOps ioSize) (.timed estimate.elapsed) (some (.ofEstimate estimate))

/-- Which collective, or stand-in for one, a plan comes to. -/
inductive Plan.Gathers (group : Option Group) : Plan → Gathering → Prop
  | collective (kind : CollectiveKind) (size : Nat) (involvedDims : List Bool) (priority : Nat) :
      Gathers group (.collective kind size involvedDims priority)
        (.collective { kind, size, involvedDims, group, priority })
  | timed (duration : Tick) : Gathers group (.timedCollective duration) (.timed duration)

section

variable {κ : Type} [Kernel κ]

/-- A kernel takes an operation and moves on to another state. -/
def Kernel.Takes (k : κ) (token : Token) (operation : Operation) (k' : κ) : Prop :=
  ∃ journal t, Kernel.start token operation ⟨k, journal⟩ = .ok () t ∧ t.state = k'

/-- A kernel gives a handle and moves on to another state. -/
def Kernel.Gives (k : κ) (gathering : Gathering) (handle : Handle) (k' : κ) : Prop :=
  ∃ journal t, Kernel.gather gathering ⟨k, journal⟩ = .ok handle t ∧ t.state = k'

/-- A kernel faults on a request. -/
def Kernel.Faults (k : κ) (f : Fault) : Prop :=
  (∃ token operation journal t,
    Kernel.start token operation (⟨k, journal⟩ : Logged κ) = .error f t) ∨
  ∃ gathering journal t, Kernel.gather gathering (⟨k, journal⟩ : Logged κ) = .error f t

end

/-! ### Moments -/

/-- An engine within a call. -/
structure Moment (κ : Type) extends Engine κ where
  /-- The events handed over so far, latest first. -/
  delivered : List Event
  /-- Nodes taken from the queue that were neither issued nor skipped nor handed back. -/
  aside : List NodeId
  /-- Nodes that ended and whose children have not been told, with the class whose slot they hold. -/
  unfreed : List (NodeId × NodeClass)
  /-- Nodes whose children have been told and that have not been removed. -/
  lingering : List NodeId

variable {κ : Type}

/-- Some node is in none of the engine's structures. -/
def Moment.Loose (m : Moment κ) : Prop := m.aside ≠ [] ∨ m.unfreed ≠ [] ∨ m.lingering ≠ []

/-- The first node of the queue is a node of the graph. -/
structure Moment.Front (m : Moment κ) (id : NodeId) (n : Node) (rest : List NodeId) : Prop where
  queue : m.workload.graph.ready = id :: rest
  found : m.workload.graph.lookup id = some n

/-- There is one node at the front of the queue. -/
theorem Moment.Front.unique {m : Moment κ} {id id' : NodeId} {n n' : Node} {rest rest' : List NodeId}
    (front : m.Front id n rest) (front' : m.Front id' n' rest') :
    id' = id ∧ n' = n ∧ rest' = rest := by
  cases front.queue.symm.trans front'.queue
  cases front.found.symm.trans front'.found
  exact ⟨rfl, rfl, rfl⟩

variable [Kernel κ]

/-! ### Drains -/

/-- What a drain does with the node at the front of the queue. -/
inductive Offer : Moment κ → Moment κ → Prop
  /-- Its resource is full, and it is put aside. -/
  | block {m : Moment κ} {id : NodeId} {n : Node} {rest : List NodeId} (front : m.Front id n rest)
      (full : m.workload.pool.hasRoom n.nodeClass = false) :
      Offer m { m with workload := m.workload.withReady rest, aside := m.aside ++ [id] }
  /-- There is nothing to simulate, and its children are told at once. -/
  | skip {m : Moment κ} {id : NodeId} {n : Node} {rest : List NodeId} {g : Graph}
      (front : m.Front id n rest) (room : m.workload.pool.hasRoom n.nodeClass = true)
      (skips : (m.workload.withReady rest).Skips n)
      (freed : (m.workload.withReady rest).graph.freeDependents n.id = .ok g) :
      Offer m { m with
        workload := { m.workload with
          graph := g.remove n.id
          statistics := m.workload.statistics.skipRecord n.id (Kernel.now m.kernel) } }
  /-- An operation is asked of the kernel. -/
  | start {m : Moment κ} {id : NodeId} {n : Node} {rest : List NodeId} {plan : Plan}
      {operation : Operation} {metrics : Option Metrics} {k : κ}
      (front : m.Front id n rest) (room : m.workload.pool.hasRoom n.nodeClass = true)
      (planned : (m.workload.withReady rest).planOf n = .ok plan)
      (starts : plan.Starts m.workload.config.roofline operation metrics)
      (takes : Kernel.Takes m.kernel ⟨m.workload.inFlight.issued⟩ operation k) :
      Offer m { m with
        workload := { (m.workload.withReady rest).opened id n.nodeClass (Kernel.now m.kernel)
            metrics with
          inFlight := (m.workload.inFlight.insert ⟨id, n.nodeClass, operation.expected⟩).2 }
        kernel := k
        asked := m.asked.push (id, .operation ⟨m.workload.inFlight.issued⟩ operation) }
  /-- A collective, or the stand-in for one, is asked of the kernel. -/
  | gather {m : Moment κ} {id : NodeId} {n : Node} {rest : List NodeId} {plan : Plan}
      {gathering : Gathering} {handle : Handle} {k : κ} {gatherings : Gatherings}
      (front : m.Front id n rest) (room : m.workload.pool.hasRoom n.nodeClass = true)
      (planned : (m.workload.withReady rest).planOf n = .ok plan)
      (gathers : plan.Gathers m.workload.group gathering)
      (gives : Kernel.Gives m.kernel gathering handle k)
      (registered : m.workload.gatherings.register handle id n.nodeClass = .ok gatherings) :
      Offer m { m with
        workload := { (m.workload.withReady rest).opened id n.nodeClass (Kernel.now m.kernel)
            none with gatherings }
        kernel := k
        asked := m.asked.push (id, .gathering handle gathering) }

/-- How a drain stops at the node at the front of the queue.  After a fault nothing is said about the
state, except where the kernel is to blame for it. -/
inductive Refuses : Moment κ → Stop → Moment κ → Prop
  | unknown {m m' : Moment κ} {id : NodeId} {rest : List NodeId}
      (queue : m.workload.graph.ready = id :: rest) (missing : m.workload.graph.lookup id = none) :
      Refuses m (.error (.unknownNode id)) m'
  /-- The node cannot be planned, and the run does not forgive it. -/
  | unplanned {m : Moment κ} {id : NodeId} {n : Node} {rest : List NodeId} {e : ReplayError}
      (front : m.Front id n rest)
      (bad : (m.workload.withReady rest).planOf n = .error (.error e))
      (unforgiven : m.workload.forgives e = false) :
      Refuses m (.error e) { m with workload := m.workload.withReady rest, aside := m.aside ++ [id] }
  | planFault {m m' : Moment κ} {id : NodeId} {n : Node} {rest : List NodeId} {f : Fault}
      (front : m.Front id n rest)
      (bad : (m.workload.withReady rest).planOf n = .error (.fault f)) : Refuses m (.fault f) m'
  | freeFault {m m' : Moment κ} {id : NodeId} {n : Node} {rest : List NodeId} {f : Fault}
      (front : m.Front id n rest)
      (bad : (m.workload.withReady rest).graph.freeDependents n.id = .error f) :
      Refuses m (.fault f) m'
  | kernelFault {m m' : Moment κ} {f : Fault} (bad : Kernel.Faults m.kernel f) :
      Refuses m (.fault f) m'
  /-- The kernel gives a handle that is out already. -/
  | handleTaken {m m' : Moment κ} {id : NodeId} {handle : Handle} {gathering : Gathering} {k : κ}
      (gives : Kernel.Gives m.kernel gathering handle k)
      (taken : m.workload.gatherings.contains handle = true)
      (asked : m'.asked = m.asked.push (id, .gathering handle gathering)) :
      Refuses m (.fault (.handleTaken handle id)) m'

/-- Some of the nodes put aside are handed back to the queue. -/
inductive HandsBack : Moment κ → Moment κ → Prop
  | intro {m : Moment κ} {before held : List NodeId} (split : m.aside = before ++ held) :
      HandsBack m { m with
        workload := m.workload.withReady (m.workload.graph.ready ++ held)
        aside := before }

/-- A whole drain: the nodes of the queue are offered until it is empty, and those put aside meanwhile
are handed back. -/
def Drains (m m' : Moment κ) : Prop :=
  ∃ m₁ held, ReflTransGen Offer m m₁ ∧ m₁.workload.graph.ready = [] ∧ m₁.aside = m.aside ++ held ∧
    m' = { m₁ with workload := m₁.workload.withReady held, aside := m.aside }

/-! ### Completions -/

/-- An event brings back what was asked for a node, for the last time if handles were given. -/
inductive Arrives (w : Workload) : Event → NodeId → NodeClass → Workload → Prop
  | token {token : Token} {context : Context}
      (out : w.inFlight.contexts.find? token.index = some context) :
      Arrives w (context.expected.event token) context.node context.nodeClass
        { w with inFlight := { w.inFlight with
            contexts := w.inFlight.contexts.erase token.index } }
  | handle {handle : Handle} {id : NodeId} {c : NodeClass}
      (out : w.gatherings.handles.find? handle.index = some id)
      (last : w.gatherings.outstanding.find? id = some (c, 1)) :
      Arrives w (.collectiveFinished handle) id c
        { w with gatherings := {
            handles := w.gatherings.handles.erase handle.index
            outstanding := w.gatherings.outstanding.erase id } }

/-- The record of a node is closed when its event arrives. -/
inductive Closes (event : Event) : Moment κ → Moment κ → Prop
  | intro {m : Moment κ} {id : NodeId} {c : NodeClass} {n : Node} {w : Workload} {s : Statistics}
      (arrives : Arrives m.workload event id c w) (found : m.workload.graph.lookup id = some n)
      (closed : m.workload.statistics.Closed n (Kernel.now m.kernel) s) :
      Closes event m { m with
        workload := { w with statistics := s }
        delivered := event :: m.delivered
        unfreed := (id, c) :: m.unfreed }

/-- The slot of a closed node is given back, and its children are told. -/
inductive Frees : Moment κ → Moment κ → Prop
  | intro {m : Moment κ} {id : NodeId} {c : NodeClass} {rest : List (NodeId × NodeClass)} {g : Graph}
      (closed : m.unfreed = (id, c) :: rest)
      (holds : ∀ r, Resource.ofClass? c = some r → m.workload.pool.taken.get r ≠ 0)
      (freed : m.workload.graph.freeDependents id = .ok g) :
      Frees m { m with
        workload := { m.workload with pool := m.workload.pool.giveBack c, graph := g }
        unfreed := rest
        lingering := id :: m.lingering }

/-- A node whose children have been told is removed. -/
inductive Removes : Moment κ → Moment κ → Prop
  | intro {m : Moment κ} {id : NodeId} {rest : List NodeId} (told : m.lingering = id :: rest) :
      Removes m { m with
        workload := { m.workload with graph := m.workload.graph.remove id }
        lingering := rest }

/-- A handle finishes for a node that has others out. -/
inductive Drops (event : Event) : Moment κ → Moment κ → Prop
  | intro {m : Moment κ} {handle : Handle} {id : NodeId} {c : NodeClass} {k : Nat}
      (same : event = .collectiveFinished handle)
      (out : m.workload.gatherings.handles.find? handle.index = some id)
      (others : m.workload.gatherings.outstanding.find? id = some (c, k + 2)) :
      Drops event m { m with
        workload := { m.workload with gatherings := {
          handles := m.workload.gatherings.handles.erase handle.index
          outstanding := m.workload.gatherings.outstanding.insert id (c, k + 1) } }
        delivered := event :: m.delivered }

/-! ### Calls -/

/-- What an event does in a run that has not ended. -/
inductive Turn : Event → Moment κ → Moment κ → Prop
  | wake {m m' : Moment κ} (drains : Drains { m with delivered := .wake :: m.delivered } m') :
      Turn .wake m m'
  | complete {event : Event} {m m₁ m₂ m₃ m' : Moment κ} (closes : Closes event m m₁)
      (frees : Frees m₁ m₂) (drains : Drains m₂ m₃) (removes : Removes m₃ m') : Turn event m m'
  | drop {event : Event} {m m' : Moment κ} (drops : Drops event m m') : Turn event m m'

/-- The check whether the run has ended: it ends when no work is left and all slots are free. -/
inductive Settles : Moment κ → Moment κ → Prop
  | goOn {m : Moment κ}
      (busy : (m.workload.adapter.hasRemainingWork m.workload.graph || !m.workload.pool.isIdle) = true) :
      Settles m m
  | finish {m : Moment κ} {memory : Option Tracker} {report : Report}
      (done : m.workload.adapter.hasRemainingWork m.workload.graph = false)
      (idle : m.workload.pool.isIdle = true)
      (untracked : m.workload.statistics.memory = none → memory = none) :
      Settles m { m with
        workload := { m.workload with
          statistics := { m.workload.statistics with memory, report := some report }
          finishTick := some (Kernel.now m.kernel) } }

/-- How a call stops in a run that has not ended. -/
inductive Halts (event : Event) : Moment κ → Stop → Moment κ → Prop
  /-- The drain of a wake stops. -/
  | wake {m m₁ m' : Moment κ} {stop : Stop} (same : event = .wake)
      (offers : ReflTransGen Offer { m with delivered := .wake :: m.delivered } m₁)
      (refuses : Refuses m₁ stop m') : Halts event m stop m'
  /-- The event brings back a token that is not out, or is of another kind. -/
  | token {m m' : Moment κ} {token : Token} {f : Fault} (brings : event.token? = some token)
      (bad : m.workload.inFlight.take token event = .error f) : Halts event m (.fault f) m'
  /-- The event brings back a handle that is not out. -/
  | handle {m m' : Moment κ} {handle : Handle} {f : Fault} (brings : event.handle? = some handle)
      (bad : m.workload.gatherings.handles.find? handle.index = none ∨
        ∃ id, m.workload.gatherings.handles.find? handle.index = some id ∧
          ∀ c k, m.workload.gatherings.outstanding.find? id ≠ some (c, k + 1)) :
      Halts event m (.fault f) m'
  | unknown {m m' : Moment κ} {id : NodeId} {c : NodeClass} {w : Workload}
      (arrives : Arrives m.workload event id c w)
      (missing : m.workload.graph.lookup id = none) : Halts event m (.error (.unknownNode id)) m'
  /-- The node has no record, or one that starts later. -/
  | record {m m' : Moment κ} {id : NodeId} {c : NodeClass} {n : Node} {w : Workload} {f : Fault}
      (arrives : Arrives m.workload event id c w) (found : m.workload.graph.lookup id = some n)
      (bad : ∀ r, m.workload.statistics.records.find? n.id = some r → Kernel.now m.kernel < r.start) :
      Halts event m (.fault f) m'
  /-- The tensor traffic of the node cannot be recorded, and the run does not forgive it. -/
  | traffic {m m' : Moment κ} {e : ReplayError} (closes : Closes event m m')
      (tracked : m.workload.statistics.memory ≠ none) (kind : e.isTraffic = true)
      (unforgiven : m.workload.forgives e = false) : Halts event m (.error e) m'
  /-- The tensor traffic of the node has not begun. -/
  | trafficFault {m m' : Moment κ} {id : NodeId} {c : NodeClass} {n : Node} {w : Workload}
      {tracker : Tracker} {f : Fault} (arrives : Arrives m.workload event id c w)
      (found : m.workload.graph.lookup id = some n)
      (tracked : m.workload.statistics.memory = some tracker)
      (bad : tracker.opened.find? n.id = none) : Halts event m (.fault f) m'
  /-- The node holds no slot. -/
  | release {m m₁ m' : Moment κ} {id : NodeId} {c : NodeClass} {r : Resource} {f : Fault}
      {rest : List (NodeId × NodeClass)}
      (closes : Closes event m m₁) (closed : m₁.unfreed = (id, c) :: rest)
      (uses : Resource.ofClass? c = some r) (bad : m₁.workload.pool.taken.get r = 0) :
      Halts event m (.fault f) m'
  | freeFault {m m₁ m' : Moment κ} {id : NodeId} {c : NodeClass} {f : Fault}
      {rest : List (NodeId × NodeClass)}
      (closes : Closes event m m₁) (closed : m₁.unfreed = (id, c) :: rest)
      (bad : m₁.workload.graph.freeDependents id = .error f) : Halts event m (.fault f) m'
  /-- The drain after a completion stops. -/
  | drain {m m₁ m₂ m₃ m' : Moment κ} {stop : Stop} (closes : Closes event m m₁) (frees : Frees m₁ m₂)
      (offers : ReflTransGen Offer m₂ m₃) (refuses : Refuses m₃ stop m') : Halts event m stop m'
  /-- The run has ended and cannot be summed up. -/
  | summary {m m₁ m' : Moment κ} {stop : Stop} {journal : Array Entry} {t : Logged Statistics}
      (turn : Turn event m m₁)
      (done : m₁.workload.adapter.hasRemainingWork m₁.workload.graph = false)
      (idle : m₁.workload.pool.isIdle = true)
      (bad : Statistics.summarize ⟨m₁.workload.statistics, journal⟩ = .error stop t) :
      Halts event m stop m'

/-! ### Moves -/

/-- One move of the engine. -/
inductive Move : Moment κ → Moment κ → Prop
  | wake (m : Moment κ) : Move m { m with delivered := .wake :: m.delivered }
  | offer {m m' : Moment κ} (h : Offer m m') : Move m m'
  /-- A drain stops at the first node of the queue. -/
  | leave {m : Moment κ} {id : NodeId} {rest : List NodeId}
      (queue : m.workload.graph.ready = id :: rest) :
      Move m { m with workload := m.workload.withReady rest, aside := m.aside ++ [id] }
  | handBack {m m' : Moment κ} (h : HandsBack m m') : Move m m'
  | close {event : Event} {m m' : Moment κ} (h : Closes event m m') : Move m m'
  | drop {event : Event} {m m' : Moment κ} (h : Drops event m m') : Move m m'
  | free {m m' : Moment κ} (h : Frees m m') : Move m m'
  | remove {m m' : Moment κ} (h : Removes m m') : Move m m'
  | settle {m m' : Moment κ} (h : Settles m m') : Move m m'

theorem Move.of_offers {m m' : Moment κ} (h : ReflTransGen Offer m m') : ReflTransGen Move m m' :=
  ReflTransGen.mono (fun _ _ => Move.offer) _ _ h

/-- What a drain does not touch. -/
structure Keeps (m m' : Moment κ) : Prop where
  delivered : m'.delivered = m.delivered
  unfreed : m'.unfreed = m.unfreed
  lingering : m'.lingering = m.lingering
  finishTick : m'.workload.finishTick = m.workload.finishTick
  report : m'.workload.report = m.workload.report

omit [Kernel κ] in
theorem Keeps.trans {m₁ m₂ m₃ : Moment κ} (h : Keeps m₂ m₃) (h' : Keeps m₁ m₂) : Keeps m₁ m₃ :=
  ⟨h.delivered.trans h'.delivered, h.unfreed.trans h'.unfreed, h.lingering.trans h'.lingering,
    h.finishTick.trans h'.finishTick, h.report.trans h'.report⟩

theorem Offer.keeps {m m' : Moment κ} (h : Offer m m') : Keeps m m' := by
  cases h <;> exact ⟨rfl, rfl, rfl, rfl, rfl⟩

theorem Offer.keeps_many {m m' : Moment κ} (h : ReflTransGen Offer m m') : Keeps m m' := by
  induction h with
  | refl => exact ⟨rfl, rfl, rfl, rfl, rfl⟩
  | tail _ hoffer ih => exact hoffer.keeps.trans ih

theorem Drains.keeps {m m' : Moment κ} (h : Drains m m') : Keeps m m' ∧ m'.aside = m.aside := by
  obtain ⟨m₁, held, hoffers, -, -, rfl⟩ := h
  exact ⟨{ Offer.keeps_many hoffers with }, rfl⟩

omit [Kernel κ] in
/-- Taking an event changes neither the graph nor the records nor the configuration. -/
theorem Arrives.keeps {w w' : Workload} {event : Event} {id : NodeId} {c : NodeClass}
    (h : Arrives w event id c w') :
    w'.graph = w.graph ∧ w'.statistics = w.statistics ∧ w'.config = w.config := by
  cases h <;> exact ⟨rfl, rfl, rfl⟩

/-- Closing a record takes the event, and does not touch the report. -/
theorem Closes.keeps {event : Event} {m m' : Moment κ} (h : Closes event m m') :
    m'.delivered = event :: m.delivered ∧ m'.workload.finishTick = m.workload.finishTick ∧
      m'.workload.report = m.workload.report := by
  obtain ⟨arrives, -, r, memory, -, -, -, rfl⟩ := h
  exact ⟨rfl, by cases arrives <;> rfl, rfl⟩

/-- Closing a record does not touch the graph. -/
theorem Closes.graph {event : Event} {m m' : Moment κ} (h : Closes event m m') :
    m'.workload.graph = m.workload.graph := by
  obtain ⟨arrives, -, -⟩ := h
  exact arrives.keeps.1

/-- A node that ends leaves aside what is there. -/
theorem Closes.aside_eq {event : Event} {m m₁ m₂ : Moment κ} (closes : Closes event m m₁)
    (frees : Frees m₁ m₂) : m₂.aside = m.aside := by
  cases closes
  cases frees
  rfl

/-- A call that returns leaves no node aside that was not there before. -/
theorem Turn.keeps {event : Event} {m m' : Moment κ} (h : Turn event m m') :
    m'.delivered = event :: m.delivered ∧ m'.aside = m.aside ∧ m'.unfreed = m.unfreed ∧
      m'.lingering = m.lingering ∧ m'.workload.finishTick = m.workload.finishTick ∧
      m'.workload.report = m.workload.report := by
  cases h with
  | wake drains =>
      obtain ⟨keeps, haside⟩ := drains.keeps
      exact ⟨keeps.delivered, haside, keeps.unfreed, keeps.lingering, keeps.finishTick, keeps.report⟩
  | complete closes frees drains removes =>
      obtain ⟨keeps, haside⟩ := drains.keeps
      obtain ⟨-, hfinish, hreport⟩ := closes.keeps
      cases closes
      obtain ⟨closed, -, -⟩ := frees
      obtain ⟨told⟩ := removes
      cases closed
      cases told.symm.trans keeps.lingering
      exact ⟨keeps.delivered, haside, keeps.unfreed, rfl, keeps.finishTick.trans hfinish,
        keeps.report.trans hreport⟩
  | drop drops =>
      cases drops
      exact ⟨rfl, rfl, rfl, rfl, rfl, rfl⟩

theorem Drains.moves {m m' : Moment κ} (h : Drains m m') : ReflTransGen Move m m' := by
  obtain ⟨m₁, held, hoffers, hready, haside, rfl⟩ := h
  refine (Move.of_offers hoffers).tail (.handBack ?_)
  have := HandsBack.intro haside
  rwa [hready] at this

/-- What an event does is a sequence of moves. -/
theorem Turn.moves {event : Event} {m m' : Moment κ} (h : Turn event m m') :
    ReflTransGen Move m m' := by
  cases h with
  | wake drains => exact drains.moves.head (.wake m)
  | complete closes frees drains removes =>
      exact .head (.close closes) (.head (.free frees) (drains.moves.tail (.remove removes)))
  | drop drops => exact .single (.drop drops)

end TraceReplay
