/-
**Service times are exact.**

On the analytical kernel a node that is not skipped ends when it started plus the cost of what its plan
asks for, or at the last tick; a node that is skipped ends when it starts.  The cost is a function of the
plan made in the state before the run, of the group and of the parameters of the cost model: it does not
depend on when the node was issued, on what else was in flight, or on which nodes had been removed.

What carries this through a run is that every event in the queue of the kernel is due at the tick at
which it ends the node that waits for it.  No node waits for an event before it is asked for, and then
exactly one does.

Main definitions:

* `Plan.serviceTime` — the cost of what a plan asks for;
* `Plan.Recorded` — durations that a plan asks for are recorded ones;
* `Awaits` — a token or a handle of a node waits for an event;
* `Served` — the nodes that ended have been served exactly;
* `OnTime` — and the events that are due will serve the others.

Main results:

* `OnTime.offer`, `OnTime.close` — requests and completions keep it;
* `OnTime.turn`, `OnTime.halts` — so does what an event does, also if the call stops with an error;
* `Replay.served_exactly` — **in every state that a whole run reaches, service times are exact**.
-/

import TraceReplay.Proofs.Engine.Course

set_option relaxedAutoImplicit false
set_option autoImplicit false

namespace TraceReplay

open Relation
open TraceReplay.Action

/-! ### The cost of a plan -/

namespace Plan

/-- The cost of what a plan asks for. -/
def serviceTime (c : AnalyticalConfig) (roofline : Option Roofline) (group : Option Group) :
    Plan → Except Fault Tick
  | .skip => .ok 0
  | .operation (.timed duration) => .ok duration
  | .operation (.remoteMemory size) =>
      .ok (AnalyticalConfig.transferCost c.remoteMemLatency (Binary64.ofCounter size)
        c.remoteMemBandwidth)
  | .operation (.send t) =>
      t.bytes.map fun bytes =>
        AnalyticalConfig.transferCost 0 (Binary64.ofCounter bytes) c.linkBandwidth
  | .operation (.receive t) =>
      t.bytes.map fun bytes =>
        AnalyticalConfig.transferCost c.linkLatency (Binary64.ofCounter bytes) c.linkBandwidth
  | .roofline numOps ioSize =>
      match roofline with
      | none => .ok 0
      | some r => (r.estimate numOps ioSize).map Estimate.elapsed
  | .collective kind size involvedDims priority =>
      c.collectiveCost { kind, size, involvedDims, group, priority }
        ((group.map Group.size).getD c.npus)
  | .timedCollective duration => .ok duration

variable {c : AnalyticalConfig} {roofline : Option Roofline} {group : Option Group} {plan : Plan}

/-- It is what the kernel takes for the operation, -/
theorem Starts.serviceTime_eq {operation : Operation} {metrics : Option Metrics}
    (h : plan.Starts roofline operation metrics) (group : Option Group) :
    plan.serviceTime c roofline group = Analytical.operationCost c operation := by
  cases h with
  | operation operation =>
      cases operation with
      | timed duration => rfl
      | remoteMemory size => rfl
      | send t => simp only [serviceTime, Analytical.operationCost]; cases t.bytes <;> rfl
      | receive t => simp only [serviceTime, Analytical.operationCost]; cases t.bytes <;> rfl
  | roofline model costs =>
      subst model
      simp only [serviceTime, costs]
      rfl

/-- or for the collective. -/
theorem Gathers.serviceTime_eq {gathering : Gathering} (h : plan.Gathers group gathering)
    (roofline : Option Roofline) :
    plan.serviceTime c roofline group = Analytical.gatheringCost c gathering := by
  cases h with
  | collective kind size involvedDims priority => cases group <;> rfl
  | timed duration => rfl

/-! ### Recorded durations -/

/-- The duration that a plan asks for is the one that the trace records for the node. -/
def Recorded (config : EngineConfig) (n : Node) : Plan → Prop
  | .operation (.timed duration) =>
      ∃ runtime, n.attributes.runtime = some runtime ∧ duration = config.replayTicks runtime
  | .timedCollective duration => duration = config.replayTicks (n.attributes.runtime.getD 0)
  | _ => True

theorem exists_of_bind_ok {ε α β : Type} {x : Except ε α} {f : α → Except ε β} {b : β}
    (h : x >>= f = .ok b) : ∃ a, x = .ok a ∧ f a = .ok b := by
  cases x with
  | error e => cases h
  | ok a => exact ⟨a, rfl, h⟩

theorem ok_of_orError {α : Type} {x : Except ReplayError α} {a : α} (h : orError x = .ok a) :
    x = .ok a := by
  cases x with
  | error e => cases h
  | ok a => cases h; rfl

variable {config : EngineConfig} {sizeOf : NodeId → Option Nat} {n : Node} {nodeClass : NodeClass}

theorem recorded_replay (h : replay config n = .ok plan) : plan.Recorded config n := by
  obtain ⟨runtime, hruntime, h⟩ := exists_of_bind_ok h
  cases h
  refine ⟨runtime, ?_, rfl⟩
  unfold require at hruntime
  split at hruntime
  next runtime' hsome => rw [hsome, Except.ok.inj hruntime]
  next => cases hruntime

theorem recorded_ofComputation (h : ofComputation sizeOf n = .ok plan) : plan.Recorded config n := by
  obtain ⟨numOps, -, h⟩ := exists_of_bind_ok h
  obtain ⟨size, -, h⟩ := exists_of_bind_ok h
  obtain ⟨bytes, -, h⟩ := exists_of_bind_ok h
  split at h
  · cases h
  · cases h
    trivial

theorem recorded_ofRemoteMemory (h : ofRemoteMemory n = .ok plan) : plan.Recorded config n := by
  obtain ⟨loc, -, h⟩ := exists_of_bind_ok h
  obtain ⟨size, -, h⟩ := exists_of_bind_ok h
  cases h
  trivial

theorem recorded_ofCollective (h : ofCollective config n = .ok plan) : plan.Recorded config n := by
  obtain ⟨kind, -, h⟩ := exists_of_bind_ok h
  obtain ⟨size, -, h⟩ := exists_of_bind_ok h
  by_cases hsupported : kind.isSupported = true
  · by_cases hprimitive : kind.hasPrimitive = true
    · simp only [hsupported, hprimitive] at h
      cases h
      trivial
    · simp only [hsupported, hprimitive] at h
      cases h
      rfl
  · simp only [hsupported] at h
    cases h

theorem recorded_ofSend (h : ofSend config n = .ok plan) : plan.Recorded config n := by
  obtain ⟨destination, -, h⟩ := exists_of_bind_ok h
  obtain ⟨size, -, h⟩ := exists_of_bind_ok h
  cases h
  trivial

theorem recorded_ofReceive (h : ofReceive config n = .ok plan) : plan.Recorded config n := by
  obtain ⟨source, -, h⟩ := exists_of_bind_ok h
  obtain ⟨size, -, h⟩ := exists_of_bind_ok h
  cases h
  trivial

/-- **Durations that a plan asks for are recorded ones.** -/
theorem recorded_ofNode (h : ofNode config sizeOf n nodeClass = .ok plan) :
    plan.Recorded config n := by
  refine ofNode_cases (P := fun x => ∀ plan, x = .ok plan → plan.Recorded config n)
    ?_ ?_ ?_ ?_ ?_ ?_ ?_ ?_ plan h
  · rintro - _ ⟨⟩
    trivial
  · exact fun _ hp => recorded_replay (ok_of_orError hp)
  · exact fun _ _ hp => recorded_ofComputation hp
  · rintro _ _ ⟨⟩
  · exact fun _ hp => recorded_ofRemoteMemory (ok_of_orError hp)
  · exact fun _ hp => recorded_ofCollective (ok_of_orError hp)
  · exact fun _ hp => recorded_ofSend (ok_of_orError hp)
  · exact fun _ hp => recorded_ofReceive (ok_of_orError hp)

end Plan

/-! ### Who waits for an event -/

/-- A token or a handle of a node waits for an event. -/
def Awaits (w : Workload) (event : Event) (id : NodeId) : Prop :=
  (∃ token context, w.inFlight.contexts.find? token = some context ∧
      context.expected.event ⟨token⟩ = event ∧ context.node = id) ∨
    ∃ handle, w.gatherings.handles.find? handle = some id ∧ .collectiveFinished ⟨handle⟩ = event

theorem Expected.index_eq {e e' : Expected} {i j : Nat} (h : e.event ⟨i⟩ = e'.event ⟨j⟩) :
    i = j := by
  cases e <;> cases e' <;> cases h <;> rfl

theorem Expected.event_ne {e : Expected} {token : Token} {handle : Handle} :
    e.event token ≠ .collectiveFinished handle := by
  cases e <;> rintro ⟨⟩

namespace Awaits

/-- Nobody waits for a wake. -/
theorem ne_wake {w : Workload} {event : Event} {id : NodeId} (h : Awaits w event id) :
    event ≠ .wake := by
  rintro rfl
  obtain ⟨token, context, -, heq, -⟩ | ⟨handle, -, heq⟩ := h
  · cases hexpected : context.expected <;> rw [hexpected] at heq <;> cases heq
  · cases heq

/-- Only completions take something out. -/
theorem of_arrives {w w' : Workload} {event event' : Event} {id id' : NodeId} {c : NodeClass}
    (arrives : Arrives w event id c w') (h : Awaits w' event' id') : Awaits w event' id' := by
  have kept {β : Type} {map : SortedMap Nat β} {k k' : Nat} {v : β}
      (h : (map.erase k).find? k' = some v) : map.find? k' = some v := by
    rw [SortedMap.find?_erase] at h
    split at h
    · cases h
    · exact h
  cases arrives with
  | token out =>
      exact h.imp_left fun ⟨token, context, hfind, heq⟩ => ⟨token, context, kept hfind, heq⟩
  | handle out last => exact h.imp_right fun ⟨handle, hfind, heq⟩ => ⟨handle, kept hfind, heq⟩

/-- An event is taken for a node that waits for it. -/
theorem arriving {w w' : Workload} {event : Event} {id : NodeId} {c : NodeClass}
    (arrives : Arrives w event id c w') : Awaits w event id := by
  cases arrives with
  | @token token context out => exact .inl ⟨token.index, context, out, rfl, rfl⟩
  | @handle handle id c out last => exact .inr ⟨handle.index, out, rfl⟩

section

variable {w w' : Workload} {event : Event} {id : NodeId}

/-- A new token waits for an event of its own, and for no other. -/
theorem of_insert {context : Context} (h : Awaits w' event id)
    (hnew : w.inFlight.contexts.find? w.inFlight.issued = none)
    (hinFlight : w'.inFlight = (w.inFlight.insert context).2)
    (hgatherings : w'.gatherings = w.gatherings) :
    event = context.expected.event ⟨w.inFlight.issued⟩ ∧ id = context.node ∨
      event ≠ context.expected.event ⟨w.inFlight.issued⟩ ∧ Awaits w event id := by
  rw [Awaits, hinFlight, hgatherings] at h
  obtain ⟨token, context', out, rfl, rfl⟩ | ⟨handle, out, rfl⟩ := h
  · rcases SortedMap.eq_or_find?_of_insert out with ⟨rfl, rfl⟩ | out
    · exact .inl ⟨rfl, rfl⟩
    · refine .inr ⟨fun heq => ?_, .inl ⟨token, context', out, rfl, rfl⟩⟩
      rw [Expected.index_eq heq, hnew] at out
      cases out
  · exact .inr ⟨Expected.event_ne.symm, .inr ⟨handle, out, rfl⟩⟩

/-- So does a new handle. -/
theorem of_register {handle : Handle} {node : NodeId} {c : NodeClass} (h : Awaits w' event id)
    (registered : w.gatherings.register handle node c = .ok w'.gatherings)
    (hinFlight : w'.inFlight = w.inFlight) :
    event = .collectiveFinished handle ∧ id = node ∨
      event ≠ .collectiveFinished handle ∧ Awaits w event id := by
  rw [Gatherings.register] at registered
  split at registered
  · cases registered
  next hnew =>
    rw [SortedMap.contains, Bool.not_eq_true, Option.isSome_eq_false_iff,
      Option.isNone_iff_eq_none] at hnew
    rw [Awaits, hinFlight, ← Except.ok.inj registered] at h
    obtain ⟨token, context, out, rfl, rfl⟩ | ⟨index, out, rfl⟩ := h
    · exact .inr ⟨Expected.event_ne, .inl ⟨token, context, out, rfl, rfl⟩⟩
    · rcases SortedMap.eq_or_find?_of_insert out with ⟨rfl, rfl⟩ | hold
      · exact .inl ⟨rfl, rfl⟩
      · refine .inr ⟨fun heq => ?_, .inr ⟨index, hold, rfl⟩⟩
        cases heq
        cases hnew.symm.trans hold

end

variable {s : Setup}

/-- Nodes that wait for an event are in flight. -/
theorem running {κ : Type} {m : Moment κ} (hc : Coherent s m) {event : Event} {id : NodeId}
    (h : Awaits m.workload event id) : Record.running m.workload.statistics.records id = true := by
  obtain ⟨token, context, out, -, rfl⟩ | ⟨handle, out, -⟩ := h
  · exact hc.custody.running_of_context out
  · exact hc.custody.running_of_handle out

/-- Every event in the queue is waited for. -/
theorem of_queued {m : Moment Analytical} (hc : Coherent s m)
    (prepared : Prepared m.kernel m.asked m.delivered) {d : Scheduled} (hd : d ∈ m.kernel.queue) :
    ∃ id, Awaits m.workload d.event id := by
  have hout : Outstanding m.delivered m.asked d.event := by
    have hledger := prepared.ledger d.event (prepared.completions d hd)
    have hpos := List.count_pos_iff.2 (List.mem_map_of_mem (f := Scheduled.event) hd)
    unfold Outstanding
    omega
  rcases hc.custody.of_outstanding hout with ⟨token, context, out, heq⟩ | ⟨handle, id, out, heq⟩
  · exact ⟨context.node, .inl ⟨token, context, out, heq, rfl⟩⟩
  · exact ⟨id, .inr ⟨handle, out, heq⟩⟩

end Awaits

/-! ### Exact service -/

/-- A node in flight has been served at a tick: its service time has passed since it started. -/
def EndsAt (s : Setup) (c : AnalyticalConfig) (records : SortedMap NodeId Record) (id : NodeId)
    (tick : Tick) : Prop :=
  ∃ n r plan cost, s.graph.lookup id = some n ∧ records.find? id = some r ∧
    s.workload.planOf n = .ok plan ∧
    plan.serviceTime c s.config.roofline s.workload.group = .ok cost ∧
    tick = Counter.addClamped r.start cost

/-- The nodes that ended have been served exactly: skipped nodes at once, and the others for their
service time. -/
def Served (s : Setup) (c : AnalyticalConfig) (records : SortedMap NodeId Record) : Prop :=
  ∀ n ∈ s.trace, ∀ r finish, records.find? n.id = some r → r.finish = some finish →
    (s.workload.Skips n → finish = r.start) ∧
    (¬s.workload.Skips n → ∃ plan cost, s.workload.planOf n = .ok plan ∧
      plan.serviceTime c s.config.roofline s.workload.group = .ok cost ∧
      finish = Counter.addClamped r.start cost)

section

variable {s : Setup} {c : AnalyticalConfig} {records : SortedMap NodeId Record} {id id' : NodeId}
variable {n : Node} {r : Record} {tick : Tick}

/-- The record of another node does not matter. -/
theorem EndsAt.insert (h : EndsAt s c records id tick) (hne : id ≠ id') :
    EndsAt s c (records.insert id' r) id tick := by
  obtain ⟨n, r', plan, cost, hn, hr', hrest⟩ := h
  exact ⟨n, r', plan, cost, hn, (SortedMap.find?_insert_of_ne _ _ hne).trans hr', hrest⟩

/-- Nor does that of a node that had none. -/
theorem EndsAt.insert_new (h : EndsAt s c records id tick) (hnone : records.find? id' = none) :
    EndsAt s c (records.insert id' r) id tick := by
  refine h.insert ?_
  rintro rfl
  obtain ⟨n, r', plan, cost, -, hr', -⟩ := h
  cases hnone.symm.trans hr'

/-- One record has to be looked at when it changes. -/
theorem Served.insert (h : Served s c records) (hn : s.graph.lookup id = some n)
    (hr : ∀ finish, r.finish = some finish → (s.workload.Skips n → finish = r.start) ∧
      (¬s.workload.Skips n → ∃ plan cost, s.workload.planOf n = .ok plan ∧
        plan.serviceTime c s.config.roofline s.workload.group = .ok cost ∧
        finish = Counter.addClamped r.start cost)) : Served s c (records.insert id r) := by
  intro n' hn' r' finish hr' hfinish
  rcases SortedMap.eq_or_find?_of_insert hr' with ⟨hid, rfl⟩ | hr'
  · have hlookup := (s.built.lookup_iff n'.id n').2 ⟨hn', rfl⟩
    rw [hid, hn] at hlookup
    cases hlookup
    exact hr finish hfinish
  · exact h n' hn' r' finish hr' hfinish

end

/-- The nodes that ended have been served exactly, and whoever waits for an event in the queue of the
kernel will have been when it is due. -/
structure OnTime (s : Setup) (c : AnalyticalConfig) (m : Moment Analytical) : Prop where
  config : m.kernel.config = c
  due : ∀ d ∈ m.kernel.queue, ∀ id, Awaits m.workload d.event id →
    EndsAt s c m.workload.statistics.records id d.tick
  served : Served s c m.workload.statistics.records

/-- Whoever waits for an event has been served at the present tick. -/
def Timely (s : Setup) (c : AnalyticalConfig) (m : Moment Analytical) (event : Event) : Prop :=
  ∀ id, Awaits m.workload event id → EndsAt s c m.workload.statistics.records id m.kernel.now

namespace OnTime

variable {s : Setup} {c : AnalyticalConfig} {m m' : Moment Analytical}

/-- A node is issued: its completion is scheduled after its service time, and no one else waits for
it. -/
theorem issue (h : OnTime s c m) {k : Analytical} (hconfig : k.config = m.kernel.config)
    (hqueue : k.queue = m.kernel.queue) (hnow : k.now = m.kernel.now) {id : NodeId} {n : Node}
    (hn : s.graph.lookup id = some n) (hnone : m.workload.statistics.records.find? id = none)
    {plan : Plan} {cost : Tick} (planned : s.workload.planOf n = .ok plan)
    (costs : plan.serviceTime c s.config.roofline s.workload.group = .ok cost) {r : Record}
    (hstart : r.start = m.kernel.now) (hopen : r.finish = none) {event : Event}
    (hrecords : m'.workload.statistics.records = m.workload.statistics.records.insert id r)
    (hkernel : m'.kernel = k.schedule cost event) (fresh : ∀ d ∈ m.kernel.queue, d.event ≠ event)
    (hawaits : ∀ event' id', Awaits m'.workload event' id' →
      event' = event ∧ id' = id ∨ event' ≠ event ∧ Awaits m.workload event' id') :
    OnTime s c m' where
  config := by
    rw [hkernel]
    exact hconfig.trans h.config
  due := by
    intro d hd id' hwaits
    rw [hkernel] at hd
    rw [hrecords]
    rcases List.mem_cons.1 ((Analytical.enqueue_perm _ _).mem_iff.1 hd) with rfl | hd
    · rcases hawaits _ _ hwaits with ⟨-, rfl⟩ | ⟨hne, -⟩
      · refine ⟨n, r, plan, cost, hn, SortedMap.find?_insert_self _ _ _, planned, costs, ?_⟩
        rw [hstart, ← hnow]
      · exact absurd rfl hne
    · rw [hqueue] at hd
      rcases hawaits _ _ hwaits with ⟨heq, -⟩ | ⟨-, hwaits⟩
      · exact absurd heq (fresh d hd)
      · exact (h.due d hd id' hwaits).insert_new hnone
  served := by
    rw [hrecords]
    exact h.served.insert hn fun finish hfinish => by cases hopen.symm.trans hfinish

/-- **What a drain does with a node keeps completions on time.** -/
theorem offer (hc : Coherent s m) (prepared : Prepared m.kernel m.asked m.delivered)
    (h : OnTime s c m) (offer : Offer m m') : OnTime s c m' := by
  have hgroup : m.workload.group = s.workload.group := hc.group
  cases offer with
  | block front full => exact ⟨h.config, h.due, h.served⟩
  | skip front room skips freed =>
      obtain ⟨hn, hid, hnone, -⟩ := hc.front front
      rw [← hid] at hnone hn
      have hskips := (hc.skips_iff _ _).1 skips
      refine ⟨h.config, fun d hd id' hwaits => (h.due d hd id' hwaits).insert_new hnone,
        h.served.insert hn fun finish hfinish => ?_⟩
      cases hfinish
      exact ⟨fun _ => rfl, fun hkept => absurd hskips hkept⟩
  | @start id n rest plan operation metrics k front room planned starts takes =>
      obtain ⟨hn, hid, hnone, -⟩ := hc.front front
      obtain ⟨cost, hcost, rfl⟩ := Analytical.schedule_of_takes takes
      rw [hc.planOf_eq] at planned
      rw [hc.config] at starts
      rw [h.config, ← starts.serviceTime_eq s.workload.group] at hcost
      have hnew := hc.custody.fresh _ (Nat.le_refl _)
      refine h.issue rfl rfl rfl hn hnone planned hcost rfl rfl rfl rfl (fun d hd heq => ?_)
        fun event' id' hwaits => hwaits.of_insert hnew rfl rfl
      -- the token is new, and whatever is in the queue is waited for already
      obtain ⟨id', ⟨token, context, out, hevent, -⟩ | ⟨handle, -, hevent⟩⟩ :=
        Awaits.of_queued hc prepared hd
      · rw [Expected.index_eq (hevent.trans heq), hnew] at out
        cases out
      · exact Expected.event_ne (hevent.trans heq).symm
  | @gather id n rest plan gathering handle k gatherings front room planned gathers gives registered =>
      obtain ⟨hn, hid, hnone, -⟩ := hc.front front
      obtain ⟨rfl, cost, hcost, rfl⟩ := Analytical.schedule_of_gives gives
      rw [hc.planOf_eq] at planned
      rw [hgroup] at gathers
      rw [h.config, ← gathers.serviceTime_eq s.config.roofline] at hcost
      refine h.issue (k := { m.kernel with nextHandle := m.kernel.nextHandle + 1 }) rfl rfl rfl hn
        hnone planned hcost rfl rfl rfl rfl (fun d hd heq => ?_)
        fun event' id' hwaits => hwaits.of_register registered rfl
      -- the handle is new as well
      obtain ⟨id', ⟨token, context, -, hevent, -⟩ | ⟨index, out, hevent⟩⟩ :=
        Awaits.of_queued hc prepared hd
      · exact Expected.event_ne (hevent.trans heq)
      · cases hevent.trans heq
        rw [Gatherings.register, SortedMap.contains, out] at registered
        cases registered

theorem offers (hc : Coherent s m) (prepared : Prepared m.kernel m.asked m.delivered)
    (h : OnTime s c m) (offers : ReflTransGen Offer m m') : OnTime s c m' := by
  induction offers with
  | refl => exact h
  | tail hoffers hoffer ih =>
      have hmoves := Move.of_offers hoffers
      refine ih.offer (hc.moves hmoves) ?_ hoffer
      rw [(Offer.keeps_many hoffers).delivered]
      exact prepared.moves hmoves

theorem drains (hc : Coherent s m) (prepared : Prepared m.kernel m.asked m.delivered)
    (h : OnTime s c m) (drains : Drains m m') : OnTime s c m' := by
  obtain ⟨m₁, held, hoffers, -, -, rfl⟩ := drains
  have h₁ := h.offers hc prepared hoffers
  exact ⟨h₁.config, h₁.due, h₁.served⟩

/-- **An event that comes on time ends its node on time.** -/
theorem close (hc : Coherent s m) (h : OnTime s c m) {event : Event} (timely : Timely s c m event)
    (closes : Closes event m m') : OnTime s c m' := by
  have hc' := hc.close closes
  obtain ⟨arrives, found, r, memory, hr, hstart, hspares, rfl⟩ := closes
  obtain ⟨hn, hid, hrunning, -⟩ := hc.arriving arrives found
  have hrunning' := hrunning
  rw [← hid] at hrunning' hn
  refine ⟨h.config, fun d hd id' hwaits => ?_, h.served.insert hn fun finish hfinish => ?_⟩
  · -- whoever still waits is still in flight
    have hstill := Awaits.running hc' hwaits
    refine (h.due d hd id' (Awaits.of_arrives arrives hwaits)).insert ?_
    rintro rfl
    rw [Record.running_insert, if_pos rfl] at hstill
    cases hstill
  · cases hfinish
    refine ⟨fun hskips => absurd hskips (hc.not_skips_of_running hrunning' hn), fun _ => ?_⟩
    obtain ⟨n', r', plan, cost, hn', hr', planned, costs, hnow⟩ := timely _ (Awaits.arriving arrives)
    rw [← hid] at hn' hr'
    cases hn.symm.trans hn'
    cases hr.symm.trans hr'
    exact ⟨plan, cost, planned, costs, hnow⟩

theorem free (h : OnTime s c m) (frees : Frees m m') : OnTime s c m' := by
  cases frees
  exact ⟨h.config, h.due, h.served⟩

/-- What an event does up to the drain after it. -/
theorem retire (hc : Coherent s m) (h : OnTime s c m) {event : Event}
    (prepared : Prepared m.kernel m.asked (event :: m.delivered)) (timely : Timely s c m event)
    {m₁ m₂ : Moment Analytical} (closes : Closes event m m₁) (frees : Frees m₁ m₂) :
    Coherent s m₂ ∧ Prepared m₂.kernel m₂.asked m₂.delivered ∧ OnTime s c m₂ := by
  have hprepared := (prepared.move (.close closes)).move (.free frees)
  refine ⟨(hc.close closes).free frees, ?_, (h.close hc timely closes).free frees⟩
  cases frees
  rw [← closes.keeps.1] at hprepared
  exact hprepared

/-- **What an event does in time keeps completions on time.** -/
theorem turn (hc : Coherent s m) (h : OnTime s c m) {event : Event}
    (prepared : Prepared m.kernel m.asked (event :: m.delivered)) (timely : Timely s c m event)
    (turn : Turn event m m') : OnTime s c m' := by
  cases turn with
  | wake drains =>
      exact OnTime.drains (m := { m with delivered := .wake :: m.delivered }) (hc.move (.wake m))
        prepared ⟨h.config, h.due, h.served⟩ drains
  | complete closes frees drains removes =>
      obtain ⟨hc₂, hprepared, h₂⟩ := h.retire hc prepared timely closes frees
      have h₃ := h₂.drains hc₂ hprepared drains
      cases removes
      exact ⟨h₃.config, h₃.due, h₃.served⟩
  | drop drops => exact absurd drops hc.not_drops

theorem settle (h : OnTime s c m) (settles : Settles m m') : OnTime s c m' := by
  cases settles <;> exact ⟨h.config, h.due, h.served⟩

/-- A drain that stops with an error has ended no node. -/
theorem refuse (hc : Coherent s m) (h : OnTime s c m) {x : ReplayError}
    (refuses : Refuses m (.error x) m') : OnTime s c m' := by
  cases refuses with
  | unknown queue missing => exact absurd missing (hc.lookup_front queue)
  | unplanned front bad unforgiven => exact ⟨h.config, h.due, h.served⟩

/-- A call that stops with an error keeps completions on time. -/
theorem halts (hc : Coherent s m) (h : OnTime s c m) {event : Event} {x : ReplayError}
    (prepared : Prepared m.kernel m.asked (event :: m.delivered)) (timely : Timely s c m event)
    (halts : Halts event m (.error x) m') : OnTime s c m' := by
  cases halts with
  | @wake m₁ _ _ same offers refuses =>
      subst same
      have hoffers : OnTime s c m₁ :=
        OnTime.offers (m := { m with delivered := .wake :: m.delivered }) (hc.move (.wake m))
          prepared ⟨h.config, h.due, h.served⟩ offers
      exact hoffers.refuse ((hc.move (.wake m)).moves (Move.of_offers offers)) refuses
  | unknown arrives missing =>
      obtain ⟨n, hn, -⟩ := hc.present_of_running (hc.custody.of_arrives arrives).1
      rw [missing] at hn
      cases hn
  | traffic closes tracked kind unforgiven => exact h.close hc timely closes
  | drain closes frees offers refuses =>
      obtain ⟨hc₂, hprepared, h₂⟩ := h.retire hc prepared timely closes frees
      exact (h₂.offers hc₂ hprepared offers).refuse (hc₂.moves (Move.of_offers offers)) refuses
  | summary turn done idle bad =>
      have hnone := (hc.moves turn.moves).unfinished_eq_none done
      exact absurd hnone (Engine.unfinished_of_summarize bad)

/-- Nothing is due before the first event. -/
theorem initial (s : Setup) (c : AnalyticalConfig) : OnTime s c (s.moment { config := c }) := by
  obtain ⟨-, group, hw⟩ := s.created_iff
  refine ⟨rfl, fun d hd => absurd hd List.not_mem_nil, fun n _ r finish hr => ?_⟩
  simp only [Setup.moment, Setup.engine, hw] at hr
  cases hr

theorem timely_wake (s : Setup) (c : AnalyticalConfig) (m : Moment Analytical) :
    Timely s c m .wake := fun _ hwaits => absurd rfl hwaits.ne_wake

/-- The next event comes on time. -/
theorem next (h : OnTime s c m) {event : Event} {k : Analytical}
    (hnext : m.kernel.next? = some (event, k)) :
    OnTime s c { m with kernel := k } ∧ Timely s c { m with kernel := k } event := by
  have hconfig := h.config
  have hdue := h.due
  obtain ⟨d, rest, hqueue, rfl, rfl⟩ := Analytical.next?_eq_some_iff.1 hnext
  rw [hqueue] at hdue
  exact ⟨⟨hconfig, fun d hd => hdue d (List.mem_cons_of_mem _ hd), h.served⟩,
    hdue d List.mem_cons_self⟩

end OnTime

/-! ### Whole runs -/

theorem Setup.Rests.onTime {s : Setup} {c : AnalyticalConfig} {m : Moment Analytical}
    (h : s.Rests c m) : OnTime s c m := by
  induction h with
  | fire turn settles =>
      have hc := (AtRest.initial s ({ config := c } : Analytical)).coherent
      exact ((OnTime.initial s c).turn hc (Prepared.initial c).wake (OnTime.timely_wake s c _)
        turn).settle settles
  | @next m m₁ m' event k rests goesOn next turn settles ih =>
      obtain ⟨calls, -, -, -, prepared⟩ := rests.atRest
      obtain ⟨h, timely⟩ := ih.next next
      exact (h.turn (rests.coherent.1.withKernel k) (prepared.next next).2.2 timely turn).settle settles

theorem Setup.Breaks.onTime {s : Setup} {c : AnalyticalConfig} {m : Moment Analytical}
    {x : ReplayError} (h : s.Breaks c (.error x) m) : OnTime s c m := by
  cases h with
  | fire halts =>
      have hc := (AtRest.initial s ({ config := c } : Analytical)).coherent
      exact (OnTime.initial s c).halts hc (Prepared.initial c).wake (OnTime.timely_wake s c _) halts
  | @next m m' event k stop rests goesOn next halts =>
      obtain ⟨calls, -, -, -, prepared⟩ := rests.atRest
      obtain ⟨h, timely⟩ := rests.onTime.next next
      exact h.halts (rests.coherent.1.withKernel k) (prepared.next next).2.2 timely halts
  | stall rests goesOn none => exact rests.onTime

/-- **Service times are exact.**  After any number of events of a whole run, and when it has returned or
stopped with an error, every node that ended and was not skipped ended when it started plus the service
time of its plan, or at the last tick; the plan is the one made before the run.  A skipped node ended
when it started.  Durations that a plan asks for are the recorded ones, scaled. -/
theorem Replay.served_exactly (s : Setup) (c : AnalyticalConfig) (j : Array Entry) :
    (∀ events, Ends (part events) ⟨s.engine { config := c }, j⟩
      (fun _ t => Served s c t.state.workload.statistics.records)
      fun stop t => (∃ x, stop = .error x) → Served s c t.state.workload.statistics.records) ∧
    (Ends run ⟨s.engine { config := c }, j⟩
      (fun _ t => Served s c t.state.workload.statistics.records)
      fun stop t => (∃ x, stop = .error x) → Served s c t.state.workload.statistics.records) ∧
    ∀ n plan, s.workload.planOf n = .ok plan → plan.Recorded s.config n := by
  refine ⟨fun events => (ends_part events).imp ?_ ?_, ends_run_rests.imp ?_ ?_,
    fun n plan planned => ?_⟩
  · rintro _ t ⟨m, rests, ht⟩
    rw [← ht]
    exact rests.onTime.served
  · rintro _ t ⟨m, breaks, ht⟩ ⟨x, rfl⟩
    rw [← ht]
    exact breaks.onTime.served
  · rintro _ t ⟨-, -, m, rests, ht, -⟩
    rw [← ht]
    exact rests.onTime.served
  · rintro _ t ⟨m, breaks, ht⟩ ⟨x, rfl⟩
    rw [← ht]
    exact breaks.onTime.served
  · obtain ⟨-, group, hw⟩ := s.created_iff
    rw [hw] at planned
    exact Plan.recorded_ofNode planned

/-- A computation, a broadcast of its result for as long as recorded, and a node of the invalid kind after
that. -/
@[irreducible] def Setup.herald : Setup :=
  .ofTrace {} [
    { id := 1, name := "compute", kind := .compute, dataDeps := [], ctrlDeps := []
      attributes := { runtime := some 3 } },
    { id := 2, name := "spread", kind := .collective, dataDeps := [1], ctrlDeps := []
      attributes := { commType := some .broadcast, commSize := some 8, runtime := some 2 } },
    { id := 3, name := "after", kind := .invalid, dataDeps := [], ctrlDeps := [2], attributes := {} }]

/-- Its run returns, and each of the nodes has ended when it should. -/
theorem Replay.served_exactly_herald : ∃ t,
    run ⟨Setup.herald.engine { config := {} }, #[]⟩ = .ok 5000 t ∧
      Served .herald {} t.state.workload.statistics.records ∧
      t.state.workload.statistics.records.toList.map (fun r => (r.1, r.2.start, r.2.finish)) =
        [(1, 0, some 3000), (2, 3000, some 5000), (3, 5000, some 5000)] := by
  have hruns : Ends run ⟨Setup.herald.engine { config := {} }, #[]⟩ (fun tick t => tick = 5000 ∧
      t.state.workload.statistics.records.toList.map (fun r => (r.1, r.2.start, r.2.finish)) =
        [(1, 0, some 3000), (2, 3000, some 5000), (3, 5000, some 5000)]) fun _ _ => False := by
    decide +kernel
  obtain ⟨_, t, hrun, rfl, hrecords⟩ := hruns.exists_ok
  obtain ⟨-, hserved, -⟩ := Replay.served_exactly .herald {} #[]
  exact ⟨t, hrun, hserved.of_ok hrun, hrecords⟩

end TraceReplay
