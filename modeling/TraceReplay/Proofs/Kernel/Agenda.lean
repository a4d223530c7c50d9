/-
**The agenda of a moment.**

The queue of the analytical kernel holds events under the tokens and handles that were given out for
them, one series for all nodes.  Its agenda says the same without these numbers: which nodes are going
to end, and when, in the order in which their events will be handed over.  It can be restricted to some
of the nodes.  Then what the engine does with the other nodes leaves it alone, whatever numbers they take
up; this is how the queues of two runs are compared.

Main definitions:

* `Orderly` — an engine that fits together, with a kernel that has what it owes in its queue;
* `Workload.waiter?` — the node that waits for an event;
* `Moment.agenda` — the nodes, out of some, that are going to end, with their ticks;
* `enlist` — an entry is put behind all that are due no later.

Main results:

* `Moment.agenda_of_takes`, `Moment.agenda_of_gives` — what is asked for is put on the agenda;
* `Closes.agenda` — a completion leaves the agenda alone;
* `Moment.agenda_of_next`, `Orderly.next_of_agenda` — **the next event is the first entry of the agenda**.
-/

import TraceReplay.Proofs.ServiceTime

set_option relaxedAutoImplicit false
set_option autoImplicit false

namespace TraceReplay

open Relation

/-! ### Orderly moments -/

/-- The parts of the engine fit together, and the queue of the kernel holds what is owed. -/
structure Orderly (s : Setup) (m : Moment Analytical) : Prop where
  coherent : Coherent s m
  prepared : Prepared m.kernel m.asked m.delivered

namespace Orderly

variable {s : Setup} {m m' : Moment Analytical}

theorem initial (s : Setup) (c : AnalyticalConfig) : Orderly s (s.moment { config := c }) :=
  ⟨(AtRest.initial s _).coherent, Prepared.initial c⟩

theorem wake (h : Orderly s m) : Orderly s { m with delivered := .wake :: m.delivered } :=
  ⟨h.coherent.move (.wake m), h.prepared.wake⟩

theorem offer (h : Orderly s m) (offer : Offer m m') : Orderly s m' := by
  refine ⟨h.coherent.offer offer, ?_⟩
  rw [offer.keeps.delivered]
  exact h.prepared.move (.offer offer)

theorem offers (h : Orderly s m) (offers : ReflTransGen Offer m m') : Orderly s m' := by
  induction offers with
  | refl => exact h
  | tail _ hoffer ih => exact ih.offer hoffer

/-- The next event is taken, and closes a record. -/
theorem close (h : Orderly s m) {event : Event} {k : Analytical}
    (next : m.kernel.next? = some (event, k)) (closes : Closes event { m with kernel := k } m') :
    Orderly s m' := by
  refine ⟨(h.coherent.withKernel k).close closes, ?_⟩
  rw [closes.keeps.1]
  exact (h.prepared.next next).2.2.move (m := { m with kernel := k }) (.close closes)

theorem free (h : Orderly s m) (frees : Frees m m') : Orderly s m' := by
  refine ⟨h.coherent.free frees, ?_⟩
  cases frees
  exact h.prepared

/-- What an event does. -/
theorem turn (h : Orderly s m) {event : Event} {k : Analytical}
    (next : m.kernel.next? = some (event, k)) (turn : Turn event { m with kernel := k } m') :
    Orderly s m' := by
  refine ⟨(h.coherent.withKernel k).moves turn.moves, ?_⟩
  rw [turn.keeps.1]
  exact (h.prepared.next next).2.2.moves (m := { m with kernel := k }) turn.moves

/-- While an event is to come there is work left. -/
theorem busy_of_next (h : Orderly s m) {event : Event} {k : Analytical}
    (next : m.kernel.next? = some (event, k)) :
    m.workload.adapter.hasRemainingWork m.workload.graph = true := by
  refine Bool.eq_true_of_not_eq_false fun done => ?_
  obtain ⟨id, hrunning⟩ := h.coherent.custody.running_of_outstanding (h.prepared.next next).1
  exact h.coherent.not_running done id hrunning

/-- The kernel gives handles that can be registered. -/
theorem register_eq (h : Orderly s m) {gathering : Gathering} {handle : Handle} {k : Analytical}
    (gives : Kernel.Gives m.kernel gathering handle k) (id : NodeId) (c : NodeClass) :
    ∃ gatherings, m.workload.gatherings.register handle id c = .ok gatherings := by
  rw [Gatherings.register]
  split
  next taken =>
    obtain ⟨id', out⟩ := Option.isSome_iff_exists.1 taken
    have reissues : Reissues m { m with asked := m.asked.push (id, .gathering handle gathering) } :=
      ⟨id, handle, gathering, k, gives, rfl, h.coherent.custody.outstanding_of_handle out⟩
    exact absurd reissues h.prepared.not_reissues
  next => exact ⟨_, rfl⟩

end Orderly

/-! ### Waiting nodes -/

/-- The node that waits for an event. -/
def Workload.waiter? (w : Workload) : Event → Option NodeId
  | .wake => none
  | .nodeFinished token | .packetSent token | .packetReceived token =>
      (w.inFlight.contexts.find? token.index).map Context.node
  | .collectiveFinished handle => w.gatherings.handles.find? handle.index

theorem Workload.waiter?_of_expected (w : Workload) (expected : Expected) (token : Token) :
    w.waiter? (expected.event token) =
      (w.inFlight.contexts.find? token.index).map Context.node := by
  cases expected <;> rfl

namespace Awaits

variable {w : Workload} {event : Event} {id : NodeId}

theorem waiter?_eq (h : Awaits w event id) : w.waiter? event = some id := by
  obtain ⟨token, context, out, rfl, rfl⟩ | ⟨handle, out, rfl⟩ := h
  · rw [w.waiter?_of_expected, out]
    rfl
  · exact out

/-- A node that waits for an event is brought back by it. -/
theorem arrives {s : Setup} {m : Moment Analytical} (hc : Coherent s m)
    (h : Awaits m.workload event id) : ∃ c w, Arrives m.workload event id c w := by
  obtain ⟨token, context, out, rfl, rfl⟩ | ⟨handle, out, rfl⟩ := h
  · exact ⟨_, _, @Arrives.token _ ⟨token⟩ context out⟩
  · -- the handle is the only one of its node
    obtain ⟨n, -, hn⟩ := hc.present_of_running (hc.custody.running_of_handle out)
    have hpos : (m.workload.gatherings.handles.count fun _ node => node = id) ≠ 0 :=
      Nat.ne_of_gt (SortedMap.count_pos_iff.2 ⟨_, _, out, decide_eq_true rfl⟩)
    have last := hc.custody.outstanding id
    rw [if_neg hpos, hn] at last
    exact ⟨_, _, @Arrives.handle _ ⟨handle⟩ id n.nodeClass out last⟩

end Awaits

/-! ### Agendas -/

/-- Puts an entry behind all that are due no later. -/
def enlist (a : Tick × NodeId) : List (Tick × NodeId) → List (Tick × NodeId)
  | [] => [a]
  | b :: l => if a.1 < b.1 then a :: b :: l else b :: enlist a l

theorem enlist_of_forall_lt {a : Tick × NodeId} {l : List (Tick × NodeId)}
    (h : ∀ b ∈ l, a.1 < b.1) : enlist a l = a :: l := by
  cases l with
  | nil => rfl
  | cons b l => rw [enlist, if_pos (h b List.mem_cons_self)]

section

variable {f : Scheduled → Option (Tick × NodeId)} {d : Scheduled} {queue : List Scheduled}

/-- An event without an entry is scheduled. -/
theorem filterMap_enqueue_of_none (h : f d = none) :
    (Analytical.enqueue d queue).filterMap f = queue.filterMap f := by
  induction queue with
  | nil => simp [Analytical.enqueue, h]
  | cons e queue ih =>
      rw [Analytical.enqueue]
      split
      · rw [List.filterMap_cons_none h]
      · simp only [List.filterMap_cons, ih]

/-- An event with an entry is scheduled. -/
theorem filterMap_enqueue_of_some (ticks : ∀ e a, f e = some a → a.1 = e.tick)
    (sorted : queue.Pairwise fun d e => d.tick ≤ e.tick) (earlier : ∀ e ∈ queue, e.number < d.number)
    {a : Tick × NodeId} (h : f d = some a) :
    (Analytical.enqueue d queue).filterMap f = enlist a (queue.filterMap f) := by
  have hd := ticks d a h
  induction queue with
  | nil => simp [Analytical.enqueue, enlist, h]
  | cons e queue ih =>
      obtain ⟨hfirst, hrest⟩ := List.pairwise_cons.1 sorted
      obtain ⟨hnumber, hnumbers⟩ := List.forall_mem_cons.1 earlier
      simp only [Analytical.enqueue, Scheduled.cmp_eq_lt_iff_of_number_lt hnumber]
      split
      next hlt =>
        -- whatever comes later in the queue is due later
        rw [List.filterMap_cons_some h, enlist_of_forall_lt]
        intro b hb
        obtain ⟨e', he', hb⟩ := List.mem_filterMap.1 hb
        have hle : e.tick ≤ e'.tick := by
          rcases List.mem_cons.1 he' with rfl | he'
          · exact Nat.le_refl _
          · exact hfirst e' he'
        rw [hd, ticks e' b hb]
        exact Nat.lt_of_lt_of_le hlt hle
      next hge =>
        cases he : f e with
        | none => rw [List.filterMap_cons_none he, List.filterMap_cons_none he, ih hrest hnumbers]
        | some b =>
            rw [List.filterMap_cons_some he, List.filterMap_cons_some he, ih hrest hnumbers,
              enlist, if_neg]
            rwa [hd, ticks e b he]

end

variable (own : NodeId → Bool)

/-- The entry of an event that one of the nodes waits for. -/
def Workload.due? (w : Workload) (d : Scheduled) : Option (Tick × NodeId) :=
  ((w.waiter? d.event).filter own).map fun id => (d.tick, id)

theorem Workload.due?_eq {w : Workload} {d : Scheduled} {id : NodeId}
    (h : w.waiter? d.event = some id) :
    w.due? own d = if own id then some (d.tick, id) else none := by
  rw [due?, h, Option.filter_some]
  split <;> rfl

theorem Workload.tick_of_due? {w : Workload} (d : Scheduled) (a : Tick × NodeId)
    (h : w.due? own d = some a) : a.1 = d.tick := by
  obtain ⟨id, -, rfl⟩ := Option.map_eq_some_iff.1 h
  rfl

/-- The nodes, out of some, that are going to end, with the ticks at which they do. -/
def Moment.agenda (m : Moment Analytical) : List (Tick × NodeId) :=
  m.kernel.queue.filterMap (m.workload.due? own)

namespace Moment

variable {own} {s : Setup} {m m' : Moment Analytical}

/-- The agenda depends on who waits for the events in the queue. -/
theorem agenda_congr (queue : m'.kernel.queue = m.kernel.queue)
    (waiters : ∀ d ∈ m.kernel.queue, m'.workload.waiter? d.event = m.workload.waiter? d.event) :
    m'.agenda own = m.agenda own := by
  rw [agenda, agenda, queue]
  refine List.filterMap_congr fun d hd => ?_
  rw [Workload.due?, Workload.due?, waiters d hd]

/-- An event is scheduled that a node waits for. -/
theorem agenda_schedule (h : Orderly s m) {k : Analytical} {event : Event} {cost : Tick}
    {id : NodeId} (hkernel : m'.kernel = k.schedule cost event) (hqueue : k.queue = m.kernel.queue)
    (hnow : k.now = m.kernel.now) (hrequests : k.requests = m.kernel.requests)
    (new : m'.workload.waiter? event = some id)
    (waiters : ∀ d ∈ m.kernel.queue, m'.workload.waiter? d.event = m.workload.waiter? d.event) :
    m'.agenda own = if own id then enlist (Counter.addClamped m.kernel.now cost, id) (m.agenda own)
      else m.agenda own := by
  have hold : { m with workload := m'.workload }.agenda own = m.agenda own :=
    agenda_congr rfl waiters
  have entry := Workload.due?_eq own (w := m'.workload)
    (d := ⟨Counter.addClamped k.now cost, k.requests, event⟩) new
  rw [agenda, hkernel, ← hold]
  simp only [Analytical.schedule, hqueue, hnow, hrequests] at entry ⊢
  split
  next hown =>
    rw [if_pos hown] at entry
    exact filterMap_enqueue_of_some (m'.workload.tick_of_due? own) h.prepared.sorted
      h.prepared.earlier entry
  next hother =>
    rw [if_neg hother] at entry
    exact filterMap_enqueue_of_none entry

/-- **An operation that is asked for is put on the agenda** of its node. -/
theorem agenda_of_takes (h : Orderly s m) {context : Context} {cost : Tick}
    (hinFlight : m'.workload.inFlight = (m.workload.inFlight.insert context).2)
    (hgatherings : m'.workload.gatherings = m.workload.gatherings)
    (hkernel : m'.kernel = m.kernel.schedule cost
      (context.expected.event ⟨m.workload.inFlight.issued⟩)) :
    m'.agenda own = if own context.node then
        enlist (Counter.addClamped m.kernel.now cost, context.node) (m.agenda own)
      else m.agenda own := by
  have fresh := h.coherent.custody.fresh _ (Nat.le_refl _)
  refine agenda_schedule h hkernel rfl rfl rfl ?_ fun d hd => ?_
  · rw [Workload.waiter?_of_expected, hinFlight, InFlight.insert, SortedMap.find?_insert_self]
    rfl
  · -- the token is new
    obtain ⟨id', ⟨token, context', out, hevent, rfl⟩ | ⟨handle, out, hevent⟩⟩ :=
      Awaits.of_queued h.coherent h.prepared hd
    · have hne : token ≠ m.workload.inFlight.issued := by
        rintro rfl
        cases fresh.symm.trans out
      rw [← hevent, Workload.waiter?_of_expected, Workload.waiter?_of_expected, hinFlight,
        InFlight.insert, SortedMap.find?_insert_of_ne _ _ hne]
    · rw [← hevent, Workload.waiter?, Workload.waiter?, hgatherings]

/-- **So is a collective.** -/
theorem agenda_of_gives (h : Orderly s m) {handle : Handle} {id : NodeId} {c : NodeClass}
    {k : Analytical} {cost : Tick} (hinFlight : m'.workload.inFlight = m.workload.inFlight)
    (registered : m.workload.gatherings.register handle id c = .ok m'.workload.gatherings)
    (hkernel : m'.kernel = k.schedule cost (.collectiveFinished handle))
    (hqueue : k.queue = m.kernel.queue) (hnow : k.now = m.kernel.now)
    (hrequests : k.requests = m.kernel.requests) :
    m'.agenda own = if own id then enlist (Counter.addClamped m.kernel.now cost, id) (m.agenda own)
      else m.agenda own := by
  rw [Gatherings.register] at registered
  split at registered
  · cases registered
  next fresh =>
    rw [SortedMap.contains, Bool.not_eq_true, Option.isSome_eq_false_iff,
      Option.isNone_iff_eq_none] at fresh
    have hhandles : m'.workload.gatherings.handles =
        m.workload.gatherings.handles.insert handle.index id := by
      rw [← Except.ok.inj registered]
    refine agenda_schedule h hkernel hqueue hnow hrequests ?_ fun d hd => ?_
    · rw [Workload.waiter?, hhandles, SortedMap.find?_insert_self]
    · -- the handle is new as well
      obtain ⟨id', ⟨token, context, out, hevent, rfl⟩ | ⟨handle', out, hevent⟩⟩ :=
        Awaits.of_queued h.coherent h.prepared hd
      · rw [← hevent, Workload.waiter?_of_expected, Workload.waiter?_of_expected, hinFlight]
      · have hne : handle' ≠ handle.index := by
          rintro rfl
          cases fresh.symm.trans out
        rw [← hevent, Workload.waiter?, Workload.waiter?, hhandles,
          SortedMap.find?_insert_of_ne _ _ hne]

variable (own) in
/-- The entry of the next event comes first. -/
theorem agenda_of_next (h : Orderly s m) {event : Event} {k : Analytical}
    (next : m.kernel.next? = some (event, k)) : ∃ id, Awaits m.workload event id ∧
      m.agenda own = if own id then (k.now, id) :: { m with kernel := k }.agenda own
        else { m with kernel := k }.agenda own := by
  obtain ⟨d, rest, hqueue, rfl, rfl⟩ := Analytical.next?_eq_some_iff.1 next
  obtain ⟨id, awaits⟩ := Awaits.of_queued h.coherent h.prepared (hqueue ▸ List.mem_cons_self)
  have entry := Workload.due?_eq own awaits.waiter?_eq
  refine ⟨id, awaits, ?_⟩
  rw [agenda, agenda, hqueue]
  split
  next hown =>
    rw [if_pos hown] at entry
    rw [List.filterMap_cons_some entry]
  next hother =>
    rw [if_neg hother] at entry
    rw [List.filterMap_cons_none entry]

end Moment

variable {own} {s : Setup} {m m' : Moment Analytical}

variable (own) in
/-- **A completion leaves the agenda alone.**  Its event is no longer in the queue, and who waits for the
others does not change. -/
theorem Closes.agenda {event : Event} {k : Analytical} (h : Orderly s m)
    (next : m.kernel.next? = some (event, k)) (closes : Closes event { m with kernel := k } m') :
    m'.agenda own = { m with kernel := k }.agenda own := by
  have h' := h.close next closes
  obtain ⟨arrives, -, -⟩ := closes
  refine Moment.agenda_congr rfl fun d hd => ?_
  obtain ⟨id, awaits⟩ := Awaits.of_queued h'.coherent h'.prepared hd
  exact awaits.waiter?_eq.trans (Awaits.of_arrives arrives awaits).waiter?_eq.symm

/-- **The first entry of an agenda of all nodes belongs to the next event.** -/
theorem Orderly.next_of_agenda (h : Orderly s m) (all : ∀ id n, s.graph.lookup id = some n → own id)
    {tick : Tick} {id : NodeId} {rest : List (Tick × NodeId)}
    (hagenda : m.agenda own = (tick, id) :: rest) : ∃ event k, m.kernel.next? = some (event, k) ∧
      Awaits m.workload event id ∧ k.now = tick ∧ k.config = m.kernel.config ∧
      { m with kernel := k }.agenda own = rest := by
  cases hnext : m.kernel.next? with
  | none =>
      rw [Moment.agenda, Analytical.next?_eq_none_iff.1 hnext] at hagenda
      cases hagenda
  | some next =>
      obtain ⟨event, k⟩ := next
      obtain ⟨id', awaits, hfirst⟩ := Moment.agenda_of_next own h hnext
      obtain ⟨n, -, hn⟩ := h.coherent.present_of_running (awaits.running h.coherent)
      rw [if_pos (all id' n hn), hagenda] at hfirst
      cases hfirst
      exact ⟨event, k, rfl, awaits, rfl, Analytical.config_of_next hnext, rfl⟩

end TraceReplay
