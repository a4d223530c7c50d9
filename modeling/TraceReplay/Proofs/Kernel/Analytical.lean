/-
**The analytical kernel keeps its promises.**

Its queue holds exactly the completions that it owes, the next one first, none of them due before the
present tick.  Therefore the events that it hands over are outstanding, its clock never goes back, and
once its queue is empty nothing is outstanding.

Main definitions:

* `Prepared` — the queue holds what is owed, in order.

Main results:

* `Scheduled.cmp_eq_lt_iff` — which event comes first;
* `Analytical.conforms` — its clock stands still while it takes requests, and only counters that leave
  their range make it fault;
* `Prepared.move` — whatever the engine does within a call, the queue holds what is owed;
* `Prepared.next`, `Prepared.none` — the next event is outstanding, and without one nothing is.
-/

import TraceReplay.Kernel.Analytical
import TraceReplay.Proofs.Engine.Returns

set_option relaxedAutoImplicit false
set_option autoImplicit false

namespace TraceReplay

open Relation
open TraceReplay.Action

/-! ### The order of events -/

namespace Scheduled

variable {a b : Scheduled}

theorem cmp_eq_lt_iff : a.cmp b = .lt ↔ a.tick < b.tick ∨ a.tick = b.tick ∧ a.number < b.number := by
  rw [cmp, Ordering.then_eq_lt, Nat.compare_eq_lt, Nat.compare_eq_eq, Nat.compare_eq_lt]

theorem tick_le_of_cmp (h : a.cmp b = .lt) : a.tick ≤ b.tick :=
  (cmp_eq_lt_iff.1 h).elim Nat.le_of_lt fun heq => Nat.le_of_eq heq.1

theorem tick_le_of_not_cmp (h : ¬a.cmp b = .lt) : b.tick ≤ a.tick :=
  Nat.le_of_not_lt fun hlt => h (cmp_eq_lt_iff.2 (.inl hlt))

/-- What was asked for later comes first only if it is due earlier. -/
theorem cmp_eq_lt_iff_of_number_lt (h : b.number < a.number) : a.cmp b = .lt ↔ a.tick < b.tick :=
  cmp_eq_lt_iff.trans (or_iff_left fun heq => Nat.lt_asymm h heq.2)

end Scheduled

namespace Analytical

/-! ### The queue -/

theorem enqueue_perm (e : Scheduled) (l : List Scheduled) : (enqueue e l).Perm (e :: l) := by
  induction l with
  | nil => exact .refl _
  | cons d ds ih =>
      rw [enqueue]
      split
      · exact .refl _
      · exact (ih.cons d).trans (.swap e d ds)

/-- The next event stays first. -/
theorem enqueue_pairwise {e : Scheduled} {l : List Scheduled}
    (h : l.Pairwise fun a b => a.tick ≤ b.tick) :
    (enqueue e l).Pairwise fun a b => a.tick ≤ b.tick := by
  induction l with
  | nil => exact List.pairwise_singleton _ _
  | cons d ds ih =>
      obtain ⟨hd, hds⟩ := List.pairwise_cons.1 h
      rw [enqueue]
      split
      next hlt =>
        refine List.pairwise_cons.2 ⟨fun a ha => ?_, h⟩
        rcases List.mem_cons.1 ha with rfl | ha
        · exact Scheduled.tick_le_of_cmp hlt
        · exact Nat.le_trans (Scheduled.tick_le_of_cmp hlt) (hd a ha)
      next hlt =>
        refine List.pairwise_cons.2 ⟨fun a ha => ?_, ih hds⟩
        rcases List.mem_cons.1 ((enqueue_perm e ds).mem_iff.1 ha) with rfl | ha
        · exact Scheduled.tick_le_of_not_cmp hlt
        · exact hd a ha

theorem pending_schedule (k : Analytical) (delay : Tick) (event : Event) :
    (k.schedule delay event).pending = k.pending + 1 :=
  (enqueue_perm _ _).length_eq

/-- The next event is the first of the queue; the clock moves to its tick. -/
theorem next?_eq_some_iff {k k' : Analytical} {event : Event} :
    k.next? = some (event, k') ↔ ∃ d rest, k.queue = d :: rest ∧ d.event = event ∧
      { k with now := d.tick, queue := rest, delivered := k.delivered + 1 } = k' := by
  cases hqueue : k.queue with
  | nil => simp [next?, hqueue]
  | cons d rest => simp [next?, hqueue, and_assoc]

theorem next?_eq_none_iff {k : Analytical} : k.next? = none ↔ k.queue = [] := by
  cases hqueue : k.queue with
  | nil => simp [next?, hqueue]
  | cons d rest => simp [next?, hqueue]

/-- The next event is no longer pending. -/
theorem pending_of_next {k k' : Analytical} {event : Event} (h : k.next? = some (event, k')) :
    k'.pending + 1 = k.pending := by
  obtain ⟨d, rest, hqueue, -, rfl⟩ := next?_eq_some_iff.1 h
  rw [pending, pending, hqueue, List.length_cons]

theorem config_of_next {k k' : Analytical} {event : Event} (h : k.next? = some (event, k')) :
    k'.config = k.config := by
  obtain ⟨d, rest, -, -, rfl⟩ := next?_eq_some_iff.1 h
  rfl

/-! ### Requests -/

theorem bounded_bytes (t : Transfer) : Bounded t.bytes := Bounded.mul _ _

theorem bounded_operationCost (c : AnalyticalConfig) (operation : Operation) :
    Bounded (operationCost c operation) := by
  cases operation with
  | timed duration => exact .ok _
  | remoteMemory size => exact .ok _
  | send t => exact (bounded_bytes t).bind fun _ => .ok _
  | receive t => exact (bounded_bytes t).bind fun _ => .ok _

theorem bounded_gatheringCost (c : AnalyticalConfig) (gathering : Gathering) :
    Bounded (gatheringCost c gathering) := by
  cases gathering with
  | timed duration => exact .ok _
  | collective request =>
      exact (Bounded.mul _ _).bind fun _ => (Bounded.mul _ _).bind fun _ =>
        (Bounded.add _ _).bind fun _ => .ok _

/-- An operation is scheduled once, after its cost. -/
theorem ends_start (k : Analytical) (j : Array Entry) (token : Token) (operation : Operation) :
    Ends (start token operation) ⟨k, j⟩
      (fun _ t => ∃ cost, operationCost k.config operation = .ok cost ∧
        t.state = k.schedule cost (operation.expected.event token))
      fun f _ => f.isOverflow = true := by
  simp only [start, ends_bind, ends_get]
  cases hcost : operationCost k.config operation with
  | error f => exact bounded_operationCost _ _ f hcost
  | ok cost =>
      simp only [ends_lift_ok]
      exact ends_forM_note _ fun j => ⟨cost, rfl, rfl⟩

/-- A new handle is given, and its completion is scheduled once, after its cost. -/
theorem ends_gather (k : Analytical) (j : Array Entry) (gathering : Gathering) :
    Ends (gather gathering) ⟨k, j⟩
      (fun handle t => handle = ⟨k.nextHandle⟩ ∧
        ∃ cost, gatheringCost k.config gathering = .ok cost ∧ t.state =
          { k with nextHandle := k.nextHandle + 1 }.schedule cost (.collectiveFinished handle))
      fun f _ => f.isOverflow = true := by
  simp only [gather, ends_bind, ends_get]
  cases hcost : gatheringCost k.config gathering with
  | error f => exact bounded_gatheringCost _ _ f hcost
  | ok cost =>
      simp only [ends_lift_ok]
      exact ends_forM_note _ fun j => ⟨rfl, cost, rfl, rfl⟩

variable {k k' : Analytical}

theorem schedule_of_takes {token : Token} {operation : Operation}
    (h : Kernel.Takes k token operation k') :
    ∃ cost, operationCost k.config operation = .ok cost ∧
      k' = k.schedule cost (operation.expected.event token) := by
  obtain ⟨j, t, ht, rfl⟩ := h
  exact (ends_start k j token operation).of_ok ht

theorem schedule_of_gives {gathering : Gathering} {handle : Handle}
    (h : Kernel.Gives k gathering handle k') : handle = ⟨k.nextHandle⟩ ∧
      ∃ cost, gatheringCost k.config gathering = .ok cost ∧ k' =
        { k with nextHandle := k.nextHandle + 1 }.schedule cost (.collectiveFinished handle) := by
  obtain ⟨j, t, ht, rfl⟩ := h
  exact (ends_gather k j gathering).of_ok ht

/-- An operation that has a cost is taken. -/
theorem takes_of_cost (token : Token) {operation : Operation} {cost : Tick}
    (h : operationCost k.config operation = .ok cost) :
    Kernel.Takes k token operation (k.schedule cost (operation.expected.event token)) := by
  have taken : Ends (start token operation) ⟨k, #[]⟩
      (fun _ t => t.state = k.schedule cost (operation.expected.event token)) fun _ _ => False := by
    simp only [start, ends_bind, ends_get, h, ends_lift_ok]
    exact ends_forM_note _ fun _ => rfl
  obtain ⟨_, t, ht, hstate⟩ := taken.exists_ok
  exact ⟨#[], t, ht, hstate⟩

/-- What has a cost is given the next handle. -/
theorem gives_of_cost {gathering : Gathering} {cost : Tick}
    (h : gatheringCost k.config gathering = .ok cost) :
    Kernel.Gives k gathering ⟨k.nextHandle⟩
      ({ k with nextHandle := k.nextHandle + 1 }.schedule cost
        (.collectiveFinished ⟨k.nextHandle⟩)) := by
  have given : Ends (gather gathering) ⟨k, #[]⟩
      (fun handle t => handle = ⟨k.nextHandle⟩ ∧ t.state =
        { k with nextHandle := k.nextHandle + 1 }.schedule cost (.collectiveFinished ⟨k.nextHandle⟩))
      fun _ _ => False := by
    simp only [gather, ends_bind, ends_get, h, ends_lift_ok]
    exact ends_forM_note _ fun _ => ⟨rfl, rfl⟩
  obtain ⟨_, t, ht, rfl, hstate⟩ := given.exists_ok
  exact ⟨#[], t, ht, hstate⟩

theorem pending_of_takes {token : Token} {operation : Operation}
    (h : Kernel.Takes k token operation k') : k'.pending = k.pending + 1 := by
  obtain ⟨cost, -, rfl⟩ := schedule_of_takes h
  exact pending_schedule _ _ _

theorem pending_of_gives {gathering : Gathering} {handle : Handle}
    (h : Kernel.Gives k gathering handle k') : k'.pending = k.pending + 1 := by
  obtain ⟨-, cost, -, rfl⟩ := schedule_of_gives h
  exact pending_schedule _ _ _

/-- **The analytical kernel keeps its promises**: its clock stands still while it takes requests, and it
faults only because a counter leaves its range. -/
theorem conforms : Kernel.Conforms Analytical where
  takes := by
    intro k k' token operation h
    obtain ⟨cost, -, rfl⟩ := schedule_of_takes h
    exact Nat.le_refl _
  gives := by
    intro k k' gathering handle h
    obtain ⟨-, cost, -, rfl⟩ := schedule_of_gives h
    exact Nat.le_refl _
  faults := by
    rintro k f (⟨token, operation, j, t, ht⟩ | ⟨gathering, j, t, ht⟩)
    · exact (ends_start k j token operation).of_error ht
    · exact (ends_gather k j gathering).of_error ht

end Analytical

/-! ### The queue of a run -/

/-- The queue holds what is owed and was not delivered, in order. -/
structure Prepared (k : Analytical) (asked : Array (NodeId × Issued)) (delivered : List Event) :
    Prop where
  /-- The clock has not left its range. -/
  now_lt : k.now < Counter.limit
  /-- Nothing is due before the present tick. -/
  due : ∀ d ∈ k.queue, k.now ≤ d.tick ∧ d.tick < Counter.limit
  sorted : k.queue.Pairwise fun a b => a.tick ≤ b.tick
  /-- Requests are numbered in ascending order. -/
  earlier : ∀ d ∈ k.queue, d.number < k.requests
  completions : ∀ d ∈ k.queue, d.event ≠ .wake
  ledger : ∀ event, event ≠ .wake →
    (owed asked).count event = delivered.count event + (k.queue.map Scheduled.event).count event
  /-- Handles are given in ascending order. -/
  numbered : ∀ id handle gathering, (id, .gathering handle gathering) ∈ asked.toList →
    handle.index < k.nextHandle

namespace Prepared

variable {k k' : Analytical} {asked : Array (NodeId × Issued)} {delivered : List Event}

/-- A fresh kernel owes nothing. -/
theorem initial (c : AnalyticalConfig) : Prepared { config := c } #[] [] :=
  ⟨Nat.zero_lt_succ _, fun _ hd => absurd hd List.not_mem_nil, .nil,
    fun _ hd => absurd hd List.not_mem_nil, fun _ hd => absurd hd List.not_mem_nil, fun _ _ => rfl,
    fun _ _ _ hmem => absurd hmem List.not_mem_nil⟩

theorem wake (h : Prepared k asked delivered) : Prepared k asked (.wake :: delivered) :=
  { h with
    ledger := fun event hne => by
      rw [List.count_cons_of_ne hne.symm]
      exact h.ledger event hne }

/-- What is asked for is scheduled. -/
theorem schedule (h : Prepared k asked delivered) (id : NodeId) (r : Issued) (cost : Tick)
    (hhandle : ∀ handle gathering, r = .gathering handle gathering → handle.index < k.nextHandle) :
    Prepared (k.schedule cost r.completion) (asked.push (id, r)) delivered where
  now_lt := h.now_lt
  due := by
    intro d hd
    rcases List.mem_cons.1 ((Analytical.enqueue_perm _ _).mem_iff.1 hd) with rfl | hd
    · exact ⟨Counter.le_addClamped _ h.now_lt, Counter.addClamped_lt _ _⟩
    · exact h.due d hd
  sorted := Analytical.enqueue_pairwise h.sorted
  earlier := by
    intro d hd
    rcases List.mem_cons.1 ((Analytical.enqueue_perm _ _).mem_iff.1 hd) with rfl | hd
    · exact Nat.lt_succ_self _
    · exact Nat.lt_succ_of_lt (h.earlier d hd)
  completions := by
    intro d hd
    rcases List.mem_cons.1 ((Analytical.enqueue_perm _ _).mem_iff.1 hd) with rfl | hd
    · exact r.completion_ne_wake
    · exact h.completions d hd
  ledger := by
    intro event hne
    have hqueue := ((Analytical.enqueue_perm ⟨Counter.addClamped k.now cost, k.requests,
      r.completion⟩ k.queue).map Scheduled.event).count_eq event
    have hledger := h.ledger event hne
    rw [List.map_cons, List.count_cons] at hqueue
    rw [owed_push, List.count_append, List.count_singleton, Analytical.schedule, hqueue]
    dsimp only
    omega
  numbered := by
    intro id' handle gathering hmem
    rw [Array.toList_push, List.mem_append, List.mem_singleton] at hmem
    rcases hmem with hmem | hmem
    · exact h.numbered id' handle gathering hmem
    · cases hmem
      exact hhandle handle gathering rfl

/-- **Whatever the engine does within a call, the queue holds what is owed.** -/
theorem move {m m' : Moment Analytical} (h : Prepared m.kernel m.asked delivered)
    (move : Move m m') : Prepared m'.kernel m'.asked delivered := by
  cases move with
  | offer hm =>
      cases hm with
      | block => exact h
      | skip => exact h
      | start front room planned starts takes =>
          obtain ⟨cost, -, rfl⟩ := Analytical.schedule_of_takes takes
          exact h.schedule _ (.operation _ _) cost fun _ _ hr => by cases hr
      | @gather id n rest plan gathering handle k gatherings front room planned gathers gives =>
          obtain ⟨rfl, cost, -, rfl⟩ := Analytical.schedule_of_gives gives
          have hnext : Prepared { m.kernel with nextHandle := m.kernel.nextHandle + 1 } m.asked
              delivered :=
            { h with numbered := fun id' handle gathering hmem =>
                Nat.lt_succ_of_lt (h.numbered id' handle gathering hmem) }
          exact hnext.schedule id (.gathering ⟨m.kernel.nextHandle⟩ gathering) cost fun _ _ hr => by
            cases hr
            exact Nat.lt_succ_self _
  | wake => exact h
  | leave queue => exact h
  | handBack hm => cases hm; exact h
  | close hm => cases hm; exact h
  | drop hm => cases hm; exact h
  | free hm => cases hm; exact h
  | remove hm => cases hm; exact h
  | settle hm => cases hm <;> exact h

theorem moves {m m' : Moment Analytical} (h : Prepared m.kernel m.asked delivered)
    (moves : ReflTransGen Move m m') : Prepared m'.kernel m'.asked delivered := by
  induction moves with
  | refl => exact h
  | tail _ hm ih => exact ih.move hm

/-- The kernel does not give a handle that is out already. -/
theorem not_reissues {m m' : Moment Analytical} (h : Prepared m.kernel m.asked delivered) :
    ¬Reissues m m' := by
  rintro ⟨id, handle, gathering, k, gives, -, hout⟩
  obtain ⟨rfl, -⟩ := Analytical.schedule_of_gives gives
  have hmem : .collectiveFinished ⟨m.kernel.nextHandle⟩ ∈ owed m.asked :=
    List.count_pos_iff.1 (Nat.lt_of_le_of_lt (Nat.zero_le _) hout)
  obtain ⟨⟨id', r⟩, hr, hcompletion⟩ := List.mem_map.1 hmem
  cases r with
  | operation token what => cases what <;> cases hcompletion
  | gathering handle gathering' =>
      cases hcompletion
      exact Nat.lt_irrefl _ (h.numbered id' _ gathering' hr)

/-- **The next event is outstanding**, and the clock does not go back. -/
theorem next (h : Prepared k asked delivered) {event : Event} (hnext : k.next? = some (event, k')) :
    Outstanding delivered asked event ∧ k.now ≤ k'.now ∧ Prepared k' asked (event :: delivered) := by
  obtain ⟨d, rest, hqueue, rfl, rfl⟩ := Analytical.next?_eq_some_iff.1 hnext
  have hdue := h.due
  have hsorted := h.sorted
  have hearlier := h.earlier
  have hcompletions := h.completions
  have hledger := h.ledger
  rw [hqueue] at hdue hsorted hearlier hcompletions hledger
  obtain ⟨hfirst, hrest⟩ := List.pairwise_cons.1 hsorted
  have hd := hdue d List.mem_cons_self
  refine ⟨?_, hd.1, ?_⟩
  · have := hledger d.event (hcompletions d List.mem_cons_self)
    rw [List.map_cons, List.count_cons_self] at this
    unfold Outstanding
    omega
  · exact {
      now_lt := hd.2
      due := fun a ha => ⟨hfirst a ha, (hdue a (List.mem_cons_of_mem _ ha)).2⟩
      sorted := hrest
      earlier := fun a ha => hearlier a (List.mem_cons_of_mem _ ha)
      completions := fun a ha => hcompletions a (List.mem_cons_of_mem _ ha)
      ledger := fun event hne => by
        have := hledger event hne
        rw [List.map_cons, List.count_cons] at this
        rw [List.count_cons]
        dsimp only
        omega
      numbered := h.numbered }

/-- Without a next event nothing is outstanding. -/
theorem none (h : Prepared k asked delivered) (hnext : k.next? = .none) (event : Event) :
    ¬Outstanding delivered asked event := by
  intro hout
  have hledger := h.ledger event hout.ne_wake
  rw [Analytical.next?_eq_none_iff.1 hnext, List.map_nil, List.count_nil] at hledger
  unfold Outstanding at hout
  omega

end Prepared

end TraceReplay
