/-
**Events come in the order of their ticks and requests.**

Whoever uses the analytical kernel makes requests of it and takes its events, in any order.  What it then
may rely on is written down as a timetable, which knows neither a queue nor a sequence counter: it keeps
the event of each request with its tick, and of those still to come the next is the one with the smallest
tick, and among these the one that was asked for first.  The kernel keeps to the timetable.  As delays
count from a clock that moves with each event, nothing that is asked for comes before what has come.

Main definitions:

* `Deed`, `Answer`, `Analytical.performAll` — what is done with a kernel, and its answers;
* `Scheduled.Before` — the order of events, by ticks and then by requests;
* `Timetable`, `Timetable.Step`, `Timetable.Steps` — what a user relies on;
* `Analytical.Follows` — the kernel is where the timetable is.

Main results:

* `Analytical.enqueue_before` — an event is put where it belongs;
* `Analytical.ends_perform` — each deed keeps the kernel where the timetable is;
* `Analytical.delivers_in_order` — **the kernel keeps to the timetable**, so that events come in order,
  once each, and its clock does not go back.
-/

import TraceReplay.Proofs.Kernel.Analytical

set_option relaxedAutoImplicit false
set_option autoImplicit false

namespace TraceReplay

open TraceReplay.Action

/-! ### Using a kernel -/

/-- What is done with a kernel: something is asked of it, or its next event is taken. -/
inductive Deed where
  | start (token : Token) (operation : Operation)
  | gather (gathering : Gathering)
  | next
  deriving DecidableEq, Repr

/-- Whether something is asked of the kernel. -/
def Deed.isRequest : Deed → Bool
  | start .. | gather _ => true
  | next => false

/-- What it takes, which faults if a counter leaves its range; an event is there at once. -/
def Deed.cost (c : AnalyticalConfig) : Deed → Except Fault Tick
  | start _ operation => Analytical.operationCost c operation
  | gather gathering => Analytical.gatheringCost c gathering
  | next => .ok 0

/-- What the kernel answers. -/
inductive Answer where
  | taken
  | gave (handle : Handle)
  | came (event : Event)
  | nothing
  deriving DecidableEq, Repr

namespace Analytical

/-- Does something with the kernel. -/
def perform : Deed → Action Fault Analytical Answer
  | .start token operation => do
      start token operation
      return .taken
  | .gather gathering => do return .gave (← gather gathering)
  | .next => do
      match (← Action.get).next? with
      | none => return .nothing
      | some (event, k) =>
          Action.put k
          return .came event

/-- Does one thing after another; the history has every deed with its answer and the tick afterwards. -/
def performAll : List Deed → Action Fault Analytical (List (Deed × Answer × Tick))
  | [] => return []
  | deed :: deeds => do
      let answer ← perform deed
      let tick := (← Action.get).now
      return (deed, answer, tick) :: (← performAll deeds)

end Analytical

/-! ### Timetables -/

/-- Events are ordered by their ticks, those of one tick by the numbers of their requests. -/
def Scheduled.Before (a b : Scheduled) : Prop :=
  a.tick < b.tick ∨ a.tick = b.tick ∧ a.number < b.number

theorem Scheduled.Before.tick_le {a b : Scheduled} (h : a.Before b) : a.tick ≤ b.tick :=
  h.elim Nat.le_of_lt fun heq => Nat.le_of_eq heq.1

theorem Scheduled.Before.trans {a b d : Scheduled} (hab : a.Before b) (hbd : b.Before d) :
    a.Before d := by
  rcases hab with hab | ⟨heq, hab⟩
  · exact .inl (Nat.lt_of_lt_of_le hab hbd.tick_le)
  · rcases hbd with hbd | ⟨heq', hbd⟩
    · exact .inl (heq ▸ hbd)
    · exact .inr ⟨heq.trans heq', Nat.lt_trans hab hbd⟩

theorem Scheduled.Before.ne {a b : Scheduled} (h : a.Before b) : a ≠ b := by
  rintro rfl
  rcases h with h | ⟨-, h⟩ <;> exact Nat.lt_irrefl _ h

/-- Of two events with different numbers one comes before the other. -/
theorem Scheduled.before_of_not_cmp {a b : Scheduled} (h : ¬a.cmp b = .lt) (hne : b.number ≠ a.number) :
    b.Before a := by
  refine (Nat.lt_or_eq_of_le (tick_le_of_not_cmp h)).imp_right fun heq => ⟨heq, ?_⟩
  have hle : b.number ≤ a.number :=
    Nat.le_of_not_lt fun hlt => h (cmp_eq_lt_iff.2 (.inr ⟨heq.symm, hlt⟩))
  exact Nat.lt_of_le_of_ne hle hne

/-- What a user of the kernel relies on. -/
structure Timetable where
  now : Tick := 0
  /-- The events asked for, in the order of the requests. -/
  asked : List Scheduled := []
  /-- The handles given. -/
  handles : List Handle := []
  /-- The events that came, in their order. -/
  came : List Scheduled := []

namespace Timetable

/-- The events still to come. -/
def toCome (t : Timetable) : List Scheduled := t.asked.filter fun d => !t.came.contains d

/-- Enters the event of a request after a delay; ticks stop at the last one. -/
def enter (t : Timetable) (delay : Tick) (event : Event) : Timetable :=
  { t with asked := t.asked ++ [⟨Counter.addClamped t.now delay, t.asked.length, event⟩] }

/-- What may happen to a timetable. -/
inductive Step (c : AnalyticalConfig) : Timetable → Deed → Answer → Timetable → Prop
  /-- An operation is asked for, and its event is entered. -/
  | start {t : Timetable} {token : Token} {operation : Operation} {cost : Tick}
      (costs : Analytical.operationCost c operation = .ok cost) :
      Step c t (.start token operation) .taken (t.enter cost (operation.expected.event token))
  /-- A handle that was not given before is given, and its event is entered. -/
  | gather {t : Timetable} {gathering : Gathering} {handle : Handle} {cost : Tick}
      (costs : Analytical.gatheringCost c gathering = .ok cost) (fresh : handle ∉ t.handles) :
      Step c t (.gather gathering) (.gave handle)
        ({ t with handles := t.handles ++ [handle] }.enter cost (.collectiveFinished handle))
  /-- The first of the events still to come comes, and the clock moves to its tick. -/
  | next {t : Timetable} {d : Scheduled} (pending : d ∈ t.toCome)
      (first : ∀ d' ∈ t.toCome, d' ≠ d → d.Before d') :
      Step c t .next (.came d.event) { t with now := d.tick, came := t.came ++ [d] }
  /-- No event is still to come. -/
  | idle {t : Timetable} (none : t.toCome = []) : Step c t .next .nothing t

/-- Several steps, with their history. -/
inductive Steps (c : AnalyticalConfig) : Timetable → List (Deed × Answer × Tick) → Timetable → Prop
  | nil (t : Timetable) : Steps c t [] t
  | cons {t t' t'' : Timetable} {deed : Deed} {answer : Answer}
      {history : List (Deed × Answer × Tick)} (step : Step c t deed answer t')
      (steps : Steps c t' history t'') : Steps c t ((deed, answer, t'.now) :: history) t''

end Timetable

/-- Every request enters one event. -/
theorem Timetable.Steps.length_asked {c : AnalyticalConfig} {t t' : Timetable}
    {history : List (Deed × Answer × Tick)} (steps : Steps c t history t') :
    t'.asked.length = t.asked.length + (history.map Prod.fst).countP Deed.isRequest := by
  induction steps with
  | nil => rfl
  | @cons t t₁ t' deed answer history step steps ih =>
      have hstep : t₁.asked.length = t.asked.length + if deed.isRequest then 1 else 0 := by
        cases step with
        | start => exact List.length_append
        | gather => exact List.length_append
        | next => rfl
        | idle => rfl
      rw [ih, hstep, List.map_cons, List.countP_cons]
      dsimp only
      omega

/-! ### The kernel at its timetable -/

namespace Analytical

/-- An event with a number of its own is put where it belongs. -/
theorem enqueue_before {e : Scheduled} {l : List Scheduled} (ordered : l.Pairwise Scheduled.Before)
    (fresh : ∀ d ∈ l, d.number ≠ e.number) : (enqueue e l).Pairwise Scheduled.Before := by
  induction l with
  | nil => exact List.pairwise_singleton _ _
  | cons d ds ih =>
      obtain ⟨hd, hds⟩ := List.pairwise_cons.1 ordered
      obtain ⟨hfresh, hfreshs⟩ := List.forall_mem_cons.1 fresh
      rw [enqueue]
      split
      next hlt =>
        have hbefore : e.Before d := Scheduled.cmp_eq_lt_iff.1 hlt
        refine List.pairwise_cons.2 ⟨fun a ha => ?_, ordered⟩
        rcases List.mem_cons.1 ha with rfl | ha
        · exact hbefore
        · exact hbefore.trans (hd a ha)
      next hnot =>
        have hbehind : d.Before e := Scheduled.before_of_not_cmp hnot hfresh
        refine List.pairwise_cons.2 ⟨fun a ha => ?_, ih hds hfreshs⟩
        rcases List.mem_cons.1 ((enqueue_perm e ds).mem_iff.1 ha) with rfl | ha
        · exact hbehind
        · exact hd a ha

/-- The kernel is where the timetable is: its queue holds the events still to come, in order, and they
come after those that came. -/
structure Follows (c : AnalyticalConfig) (k : Analytical) (t : Timetable) : Prop where
  config : k.config = c
  now : k.now = t.now
  now_lt : k.now < Counter.limit
  requests : k.requests = t.asked.length
  numbered : ∀ d ∈ t.asked, d.number < t.asked.length
  perm : (t.came ++ k.queue).Perm t.asked
  ordered : (t.came ++ k.queue).Pairwise Scheduled.Before
  past : ∀ d ∈ t.came, d.tick ≤ k.now
  due : ∀ d ∈ k.queue, k.now ≤ d.tick ∧ d.tick < Counter.limit
  delivered : k.delivered = t.came.length
  distinct : t.handles.Nodup
  handles : ∀ h ∈ t.handles, h.index < k.nextHandle

namespace Follows

variable {c : AnalyticalConfig} {k : Analytical} {t : Timetable}

/-- A fresh kernel. -/
theorem initial (c : AnalyticalConfig) : Follows c { config := c } {} where
  config := rfl
  now := rfl
  now_lt := (by decide : 0 < Counter.limit)
  requests := rfl
  numbered := fun d h => by cases h
  perm := .refl _
  ordered := .nil
  past := fun d h => by cases h
  due := fun d h => by cases h
  delivered := rfl
  distinct := .nil
  handles := fun d h => by cases h

theorem nodup (h : Follows c k t) : (t.came ++ k.queue).Nodup := h.ordered.imp fun hlt => hlt.ne

/-- **The queue holds what is still to come.** -/
theorem toCome_perm (h : Follows c k t) : t.toCome.Perm k.queue := by
  have hfilter := h.perm.filter fun d => !t.came.contains d
  rw [List.filter_append] at hfilter
  have hcame : t.came.filter (fun d => !t.came.contains d) = [] := by simp
  have hqueue : k.queue.filter (fun d => !t.came.contains d) = k.queue := by
    refine List.filter_eq_self.2 fun d hd => ?_
    have hnew : d ∉ t.came := fun hmem => (List.nodup_append.1 h.nodup).2.2 d hmem d hd rfl
    simpa using hnew
  rw [hcame, hqueue, List.nil_append] at hfilter
  exact hfilter.symm

/-- Nothing is lost and nothing comes twice. -/
theorem perm_toCome (h : Follows c k t) : (t.came ++ t.toCome).Perm t.asked :=
  (h.toCome_perm.append_left _).trans h.perm

/-- A request is scheduled behind all that were made before it and are due no later, and behind all that
came. -/
theorem schedule (h : Follows c k t) (delay : Tick) (event : Event) :
    Follows c (k.schedule delay event) (t.enter delay event) := by
  let e : Scheduled := ⟨Counter.addClamped k.now delay, k.requests, event⟩
  have hasked : (t.enter delay event).asked = t.asked ++ [e] := by
    rw [Timetable.enter, ← h.now, ← h.requests]
  have hqueue : (enqueue e k.queue).Perm (e :: k.queue) := enqueue_perm e k.queue
  have hnow : k.now ≤ e.tick := Counter.le_addClamped delay h.now_lt
  have hearlier : ∀ d ∈ t.came ++ k.queue, d.number < e.number := fun d hd => by
    show d.number < k.requests
    rw [h.requests]
    exact h.numbered d (h.perm.mem_iff.1 hd)
  obtain ⟨hcame, hpending, hbehind⟩ := List.pairwise_append.1 h.ordered
  exact {
    config := h.config
    now := h.now
    now_lt := h.now_lt
    requests := by
      rw [hasked, List.length_append]
      exact congrArg (· + 1) h.requests
    numbered := by
      intro d hd
      rw [hasked] at hd ⊢
      rw [List.length_append]
      rcases List.mem_append.1 hd with hd | hd
      · exact Nat.lt_succ_of_lt (h.numbered d hd)
      · cases List.mem_singleton.1 hd
        exact Nat.lt_succ_of_le (Nat.le_of_eq h.requests)
    perm := by
      rw [hasked]
      calc List.Perm (t.came ++ enqueue e k.queue) (t.came ++ e :: k.queue) := hqueue.append_left _
        List.Perm _ (e :: (t.came ++ k.queue)) := List.perm_middle
        List.Perm _ (e :: t.asked) := h.perm.cons e
        List.Perm _ (t.asked ++ [e]) := (List.perm_append_singleton e t.asked).symm
    ordered := by
      refine List.pairwise_append.2 ⟨hcame, enqueue_before hpending fun d hd =>
        Nat.ne_of_lt (hearlier d (List.mem_append_right _ hd)), fun a ha b hb => ?_⟩
      rcases List.mem_cons.1 (hqueue.mem_iff.1 hb) with rfl | hb
      · -- it is due now at the earliest, and nothing that came was due later
        have hnumber := hearlier a (List.mem_append_left _ ha)
        exact (Nat.lt_or_eq_of_le (Nat.le_trans (h.past a ha) hnow)).imp_right fun heq =>
          ⟨heq, hnumber⟩
      · exact hbehind a ha b hb
    past := h.past
    due := by
      intro d hd
      rcases List.mem_cons.1 (hqueue.mem_iff.1 hd) with rfl | hd
      · exact ⟨hnow, Counter.addClamped_lt _ _⟩
      · exact h.due d hd
    delivered := h.delivered
    distinct := h.distinct
    handles := h.handles }

/-- A new handle is given. -/
theorem give (h : Follows c k t) :
    Follows c { k with nextHandle := k.nextHandle + 1 }
      { t with handles := t.handles ++ [⟨k.nextHandle⟩] } := by
  have hfresh : (⟨k.nextHandle⟩ : Handle) ∉ t.handles := fun hmem =>
    Nat.lt_irrefl _ (h.handles _ hmem)
  exact { h with
    distinct := List.nodup_append.2 ⟨h.distinct, List.pairwise_singleton _ _, fun a ha b hb => by
      cases List.mem_singleton.1 hb
      exact fun heq => hfresh (heq ▸ ha)⟩
    handles := fun handle hmem => by
      rcases List.mem_append.1 hmem with hmem | hmem
      · exact Nat.lt_succ_of_lt (h.handles handle hmem)
      · cases List.mem_singleton.1 hmem
        exact Nat.lt_succ_self _ }

/-- The first event of the queue comes. -/
theorem deliver (h : Follows c k t) {d : Scheduled} {rest : List Scheduled}
    (hqueue : k.queue = d :: rest) :
    Timetable.Step c t .next (.came d.event) { t with now := d.tick, came := t.came ++ [d] } ∧
      Follows c { k with now := d.tick, queue := rest, delivered := k.delivered + 1 }
        { t with now := d.tick, came := t.came ++ [d] } := by
  have hsplit : t.came ++ [d] ++ rest = t.came ++ k.queue := by
    rw [hqueue, List.append_assoc, List.singleton_append]
  have hfirst : ∀ d' ∈ rest, d.Before d' := by
    have hpending := (List.pairwise_append.1 h.ordered).2.1
    rw [hqueue] at hpending
    exact (List.pairwise_cons.1 hpending).1
  have hd : d ∈ k.queue := by
    rw [hqueue]
    exact List.mem_cons_self
  obtain ⟨hdue, hlimit⟩ := h.due d hd
  refine ⟨.next (h.toCome_perm.mem_iff.2 hd) fun d' hd' hne => ?_, ?_⟩
  · have hd' := h.toCome_perm.mem_iff.1 hd'
    rw [hqueue] at hd'
    exact hfirst d' ((List.mem_cons.1 hd').resolve_left hne)
  · exact {
      config := h.config
      now := rfl
      now_lt := hlimit
      requests := h.requests
      numbered := h.numbered
      perm := by
        rw [hsplit]
        exact h.perm
      ordered := by
        rw [hsplit]
        exact h.ordered
      past := by
        intro a ha
        rcases List.mem_append.1 ha with ha | ha
        · exact Nat.le_trans (h.past a ha) hdue
        · cases List.mem_singleton.1 ha
          exact Nat.le_refl _
      due := fun d' hd' => ⟨(hfirst d' hd').tick_le, (h.due d' (by
        rw [hqueue]
        exact List.mem_cons_of_mem d hd')).2⟩
      delivered := by
        rw [List.length_append]
        exact congrArg (· + 1) h.delivered
      distinct := h.distinct
      handles := h.handles }

end Follows

/-! ### What is done with the kernel -/

variable {c : AnalyticalConfig} {k : Analytical} {t : Timetable}

/-- **Each deed keeps the kernel where the timetable is**, and the clock does not go back; only what costs
too much is not done. -/
theorem ends_perform (h : Follows c k t) (deed : Deed) (j : Array Entry) :
    Ends (perform deed) ⟨k, j⟩
      (fun answer u => ∃ t', Timetable.Step c t deed answer t' ∧ Follows c u.state t' ∧ t.now ≤ t'.now)
      fun f _ => deed.cost c = .error f := by
  obtain rfl := h.config
  cases deed with
  | start token operation =>
      simp only [perform, start, ends_bind, ends_get]
      cases hcost : operationCost k.config operation with
      | error f => exact hcost
      | ok cost =>
          simp only [ends_lift_ok]
          exact ends_forM_note _ fun _ =>
            ⟨_, .start hcost, h.schedule cost (operation.expected.event token), Nat.le_refl _⟩
  | gather gathering =>
      simp only [perform, gather, ends_bind, ends_get]
      cases hcost : gatheringCost k.config gathering with
      | error f => exact hcost
      | ok cost =>
          have hfresh : (⟨k.nextHandle⟩ : Handle) ∉ t.handles := fun hmem =>
            Nat.lt_irrefl _ (h.handles _ hmem)
          simp only [ends_lift_ok]
          exact ends_forM_note _ fun _ => ⟨_, .gather hcost hfresh,
            h.give.schedule cost (.collectiveFinished ⟨k.nextHandle⟩), Nat.le_refl _⟩
  | next =>
      simp only [perform, ends_bind, ends_get]
      cases hqueue : k.queue with
      | nil =>
          have hnone : t.toCome = [] := (hqueue ▸ h.toCome_perm).eq_nil
          simp only [next?_eq_none_iff.2 hqueue, ends_pure]
          exact ⟨t, .idle hnone, h, Nat.le_refl _⟩
      | cons d rest =>
          obtain ⟨step, follows⟩ := h.deliver hqueue
          have hdue := (h.due d (hqueue ▸ List.mem_cons_self)).1
          simp only [next?, hqueue, ends_bind, ends_put, ends_pure]
          exact ⟨_, step, follows, h.now ▸ hdue⟩

/-- The kernel keeps to the timetable whatever is done with it. -/
theorem ends_performAll (deeds : List Deed) : ∀ {k : Analytical} {t : Timetable} {j : Array Entry},
    Follows c k t → Ends (performAll deeds) ⟨k, j⟩
      (fun history u => history.map Prod.fst = deeds ∧
        ∃ t', Timetable.Steps c t history t' ∧ Follows c u.state t' ∧
          (history.map fun x => x.2.2).Pairwise (· ≤ ·) ∧ ∀ x ∈ history, t.now ≤ x.2.2)
      fun f _ => ∃ deed ∈ deeds, deed.cost c = .error f := by
  induction deeds with
  | nil => exact fun h => ⟨rfl, _, .nil _, h, .nil, fun x hx => by cases hx⟩
  | cons deed deeds ih =>
      intro k t j h
      simp only [performAll, ends_bind]
      refine (ends_perform h deed j).imp ?_ fun f u hcost => ⟨deed, List.mem_cons_self, hcost⟩
      rintro answer ⟨k', j'⟩ ⟨t', step, follows, hlater⟩
      simp only [ends_get, ends_pure]
      refine (ih follows).imp ?_ ?_
      · rintro history u ⟨hdeeds, t'', steps, follows', hticks, hafter⟩
        rw [show k'.now = t'.now from follows.now]
        refine ⟨congrArg (deed :: ·) hdeeds, t'', .cons step steps, follows',
          List.pairwise_cons.2 ⟨fun tick htick => ?_, hticks⟩, fun x hx => ?_⟩
        · obtain ⟨x, hx, rfl⟩ := List.mem_map.1 htick
          exact hafter x hx
        · rcases List.mem_cons.1 hx with rfl | hx
          · exact hlater
          · exact Nat.le_trans hlater (hafter x hx)
      · rintro f u ⟨deed', hmem, hcost⟩
        exact ⟨deed', List.mem_cons_of_mem deed hmem, hcost⟩

/-- What costs too much does so because a counter leaves its range. -/
theorem bounded_cost (deed : Deed) : Bounded (deed.cost c) := by
  cases deed with
  | start token operation => exact bounded_operationCost c operation
  | gather gathering => exact bounded_gatheringCost c gathering
  | next => exact .ok 0

theorem eq_of_ofConfig (made : ofConfig c = .ok k) : k = { config := c } := by
  rw [ofConfig] at made
  cases hvalid : c.validate with
  | error e =>
      rw [hvalid] at made
      cases made
  | ok _ =>
      rw [hvalid] at made
      cases made
      rfl

/-- **Events come in the order of their ticks and requests.**  Whatever is asked of a fresh kernel, and
whenever its events are taken, all is done as on a timetable: each request enters one event, of its kind
and due after its cost, under a handle that was not given before if it gets one; and the event that comes
is the first of those still to come, or there is none.  Over the whole history the events come in strict
order, none of them is lost or comes twice, the kernel counts them rightly, and its clock never goes back.
Otherwise the cost of some request leaves the range of counters. -/
theorem delivers_in_order (made : ofConfig c = .ok k) (deeds : List Deed) (j : Array Entry) :
    Ends (performAll deeds) ⟨k, j⟩
      (fun history u => history.map Prod.fst = deeds ∧ ∃ table, Timetable.Steps c {} history table ∧
        table.came.Pairwise Scheduled.Before ∧ table.handles.Nodup ∧
        (table.came ++ table.toCome).Perm table.asked ∧
        u.state.now = table.now ∧ u.state.delivered = table.came.length ∧
        u.state.pending = table.toCome.length ∧
        u.state.delivered + u.state.pending = deeds.countP Deed.isRequest ∧
        (history.map fun x => x.2.2).Pairwise (· ≤ ·))
      fun f _ => f.isOverflow = true ∧ ∃ deed ∈ deeds, deed.cost c = .error f := by
  cases eq_of_ofConfig made
  refine (ends_performAll deeds (Follows.initial c)).imp ?_ ?_
  · rintro history u ⟨hdeeds, table, steps, follows, hticks, -⟩
    have hpending : u.state.pending = table.toCome.length := follows.toCome_perm.length_eq.symm
    have hcount := follows.perm_toCome.length_eq
    rw [List.length_append, steps.length_asked, hdeeds] at hcount
    refine ⟨hdeeds, table, steps, (List.pairwise_append.1 follows.ordered).1, follows.distinct,
      follows.perm_toCome, follows.now, follows.delivered, hpending, ?_, hticks⟩
    rw [follows.delivered, hpending, hcount]
    exact Nat.zero_add _
  · rintro f u ⟨deed, hmem, hcost⟩
    exact ⟨bounded_cost deed f hcost, deed, hmem, hcost⟩

/-- Three requests, of which the first and the last are due at once and the other one at the last tick;
when both of these have come another one is made that is also due at the last tick. -/
def saturating : List Deed := [
  .start ⟨1⟩ (.timed 5), .start ⟨2⟩ (.timed Counter.greatest), .gather (.timed 5), .next, .next,
  .start ⟨3⟩ (.timed Counter.greatest), .next, .next, .next]

/-- At the last tick, too, events come in the order of the requests. -/
theorem delivers_in_order_saturating : ∃ k, ofConfig {} = .ok k ∧ ∃ history u,
    performAll saturating ⟨k, #[]⟩ = .ok history u ∧
    history.map Prod.snd = [(.taken, 0), (.taken, 0), (.gave ⟨0⟩, 0), (.came (.nodeFinished ⟨1⟩), 5),
      (.came (.collectiveFinished ⟨0⟩), 5), (.taken, 5), (.came (.nodeFinished ⟨2⟩), Counter.greatest),
      (.came (.nodeFinished ⟨3⟩), Counter.greatest), (.nothing, Counter.greatest)] ∧
    ∃ table, Timetable.Steps {} {} history table ∧ table.came.Pairwise Scheduled.Before ∧
      u.state.delivered + u.state.pending = 4 := by
  have hvalid : AnalyticalConfig.validate {} = .ok () := by decide +kernel
  have made : ofConfig {} = .ok { config := {} } := by
    rw [ofConfig, hvalid]
    rfl
  have hruns : Ends (performAll saturating) ⟨{ config := {} }, #[]⟩ (fun history _ =>
      history.map Prod.snd = [(.taken, 0), (.taken, 0), (.gave ⟨0⟩, 0), (.came (.nodeFinished ⟨1⟩), 5),
        (.came (.collectiveFinished ⟨0⟩), 5), (.taken, 5),
        (.came (.nodeFinished ⟨2⟩), Counter.greatest), (.came (.nodeFinished ⟨3⟩), Counter.greatest),
        (.nothing, Counter.greatest)]) fun _ _ => False := by decide +kernel
  refine ⟨_, made, ?_⟩
  obtain ⟨history, u, hrun, hhistory⟩ := hruns.exists_ok
  obtain ⟨-, table, steps, hcame, -, -, -, -, -, hcount, -⟩ :=
    (delivers_in_order made saturating #[]).of_ok hrun
  exact ⟨history, u, hrun, hhistory, table, steps, hcame, hcount⟩

end Analytical

end TraceReplay
