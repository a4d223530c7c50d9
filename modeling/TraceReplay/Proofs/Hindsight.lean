/-
**What the records tell in hindsight.**

A record is opened at the present tick and closed at the present tick, and is not changed otherwise.  So
what the records say of a tick that has passed stays as it is.  Between two events of the kernel nothing
happens, and the records of a whole run, read at any tick that has passed, show the moment of rest before
that tick: which nodes had started then, and which of them had ended.

Main definitions:

* `Record.startedBy`, `Record.endedBy` — whether a node had started, or ended, at a tick;
* `Record.AgreeBefore` — two states of the records agree on all ticks before one.

Main results:

* `Move.agreeBefore`, `Move.agreeBefore_many` — the past does not change;
* `Setup.Rests.seen` — **the records of a run show every moment of rest**.
-/

import TraceReplay.Proofs.Engine.Course

set_option relaxedAutoImplicit false
set_option autoImplicit false

namespace TraceReplay

open Relation

/-! ### Records at a tick -/

namespace Record

/-- Whether a node had started at a tick. -/
def startedBy (records : SortedMap NodeId Record) (t : Tick) (id : NodeId) : Bool :=
  (records.find? id).any fun r => r.start ≤ t

/-- Whether a node had ended at a tick. -/
def endedBy (records : SortedMap NodeId Record) (t : Tick) (id : NodeId) : Bool :=
  (records.find? id).any fun r => r.finish.any fun finish => finish ≤ t

variable {records records' records'' : SortedMap NodeId Record} {id : NodeId} {r : Record}
variable {t now : Tick}

theorem startedBy_iff :
    startedBy records t id = true ↔ ∃ r, records.find? id = some r ∧ r.start ≤ t := by
  simp [startedBy, Option.any_eq_true]

theorem endedBy_iff : endedBy records t id = true ↔
    ∃ r finish, records.find? id = some r ∧ r.finish = some finish ∧ finish ≤ t := by
  simp only [endedBy, Option.any_eq_true, decide_eq_true_eq]
  constructor
  · rintro ⟨r, hr, finish, hfinish, hle⟩
    exact ⟨r, finish, hr, hfinish, hle⟩
  · rintro ⟨r, finish, hr, hfinish, hle⟩
    exact ⟨r, hr, finish, hfinish, hle⟩

/-- A node was in flight if it had started and had not ended. -/
theorem activeAt_eq (hr : records.find? id = some r) :
    r.activeAt t = (startedBy records t id && !endedBy records t id) := by
  rw [startedBy, endedBy, hr, activeAt]
  cases hf : r.finish with
  | none => simp [hf]
  | some finish =>
      have hnot : (!decide (finish ≤ t)) = decide (t < finish) := by
        rw [← decide_not, decide_eq_decide, Nat.not_le]
      simp [hf, hnot]

/-- Two states of the records agree on all ticks before one. -/
def AgreeBefore (now : Tick) (records records' : SortedMap NodeId Record) : Prop :=
  ∀ t id, t < now → startedBy records' t id = startedBy records t id ∧
    endedBy records' t id = endedBy records t id

theorem AgreeBefore.refl (now : Tick) (records : SortedMap NodeId Record) :
    AgreeBefore now records records := fun _ _ _ => ⟨rfl, rfl⟩

theorem AgreeBefore.trans (h : AgreeBefore now records records')
    (h' : AgreeBefore now records' records'') : AgreeBefore now records records'' :=
  fun t id ht => ⟨(h' t id ht).1.trans (h t id ht).1, (h' t id ht).2.trans (h t id ht).2⟩

theorem AgreeBefore.mono (h : AgreeBefore now records records') {now' : Tick} (hle : now' ≤ now) :
    AgreeBefore now' records records' := fun t id ht => h t id (Nat.lt_of_lt_of_le ht hle)

/-- A record that is opened now says nothing of the past. -/
theorem agreeBefore_open (hnone : records.find? id = none) (hstart : r.start = now)
    (hfinish : ∀ finish, r.finish = some finish → finish = now) :
    AgreeBefore now records (records.insert id r) := by
  intro t id' ht
  simp only [startedBy, endedBy, SortedMap.find?_insert]
  split
  next heq =>
    subst heq
    refine ⟨by simp [hnone, hstart, ht], ?_⟩
    cases hf : r.finish with
    | none => simp [hnone, hf]
    | some finish => simp [hnone, hf, hfinish finish hf, ht]
  next => exact ⟨rfl, rfl⟩

/-- Nor does the end of a record that is closed now. -/
theorem agreeBefore_close (hr : records.find? id = some r) (hopen : r.finish = none) :
    AgreeBefore now records (records.insert id { r with finish := some now }) := by
  intro t id' ht
  simp only [startedBy, endedBy, SortedMap.find?_insert]
  split
  next heq =>
    subst heq
    exact ⟨by simp [hr], by simp [hr, hopen, ht]⟩
  next => exact ⟨rfl, rfl⟩

end Record

/-- As many nodes were active. -/
theorem activeOn_congr {g₀ : Graph} {records records' : SortedMap NodeId Record} {r : Resource}
    {t t' : Tick}
    (hstarted : ∀ id, Record.startedBy records' t' id = Record.startedBy records t id)
    (hended : ∀ id, Record.endedBy records' t' id = Record.endedBy records t id) :
    activeOn g₀ records' r t' = activeOn g₀ records r t := by
  have hset (records : SortedMap NodeId Record) (t : Tick) (id : NodeId) :
      (∃ record, records.find? id = some record ∧
        (resourceOf g₀ id = some r && record.activeAt t) = true) ↔
      resourceOf g₀ id = some r ∧ Record.startedBy records t id = true ∧
        Record.endedBy records t id = false := by
    constructor
    · rintro ⟨record, hrecord, hactive⟩
      rw [Record.activeAt_eq hrecord] at hactive
      simpa using hactive
    · rintro ⟨hresource, hstart, hend⟩
      obtain ⟨record, hrecord, -⟩ := Record.startedBy_iff.1 hstart
      refine ⟨record, hrecord, ?_⟩
      rw [Record.activeAt_eq hrecord, hstart, hend]
      simpa using hresource
  rw [activeOn, activeOn, ← SortedMap.ncard_setOf, ← SortedMap.ncard_setOf]
  congr 1
  ext id
  simp only [Set.mem_ofPred_eq, hset, hstarted, hended]

/-! ### The past does not change -/

section

variable {κ : Type} [Kernel κ] {s : Setup} {m m' : Moment κ}

/-- **No move changes what the records say of the past.** -/
theorem Move.agreeBefore (hc : Coherent s m) (h : Move m m') :
    Record.AgreeBefore (Kernel.now m.kernel) m.workload.statistics.records
      m'.workload.statistics.records := by
  cases h with
  | offer hm =>
      cases hm with
      | block => exact .refl _ _
      | skip front room skips freed =>
          obtain ⟨hn, hid, hnone, -⟩ := hc.front front
          rw [← hid] at hnone
          exact Record.agreeBefore_open hnone rfl fun _ hfinish => by cases hfinish; rfl
      | start front room planned starts takes =>
          obtain ⟨hn, hid, hnone, -⟩ := hc.front front
          exact Record.agreeBefore_open hnone rfl fun _ hfinish => by cases hfinish
      | gather front room planned gathers gives registered =>
          obtain ⟨hn, hid, hnone, -⟩ := hc.front front
          exact Record.agreeBefore_open hnone rfl fun _ hfinish => by cases hfinish
  | close hm =>
      obtain ⟨arrives, found, r, memory, hr, hstart, hspares, rfl⟩ := hm
      obtain ⟨hn, hid, hrunning, -⟩ := hc.arriving arrives found
      rw [← hid] at hrunning
      exact Record.agreeBefore_close hr (Record.finish_of_running hrunning hr)
  | drop hm => exact absurd hm hc.not_drops
  | wake => exact .refl _ _
  | leave queue => exact .refl _ _
  | handBack hm => cases hm; exact .refl _ _
  | free hm => cases hm; exact .refl _ _
  | remove hm => cases hm; exact .refl _ _
  | settle hm => cases hm <;> exact .refl _ _

/-- A move leaves the kernel alone, or makes a request that the kernel takes. -/
theorem Move.kernel (h : Move m m') : m'.kernel = m.kernel ∨
    (∃ token operation, Kernel.Takes m.kernel token operation m'.kernel) ∨
      ∃ gathering handle, Kernel.Gives m.kernel gathering handle m'.kernel := by
  cases h with
  | offer hm =>
      cases hm with
      | block => exact .inl rfl
      | skip => exact .inl rfl
      | start front room planned starts takes => exact .inr (.inl ⟨_, _, takes⟩)
      | gather front room planned gathers gives registered => exact .inr (.inr ⟨_, _, gives⟩)
  | wake => exact .inl rfl
  | leave queue => exact .inl rfl
  | handBack hm => cases hm; exact .inl rfl
  | close hm => cases hm; exact .inl rfl
  | drop hm => cases hm; exact .inl rfl
  | free hm => cases hm; exact .inl rfl
  | remove hm => cases hm; exact .inl rfl
  | settle hm => cases hm <;> exact .inl rfl

/-- The clock does not go back within a call. -/
theorem Move.now_le (steady : Kernel.Steady κ) (h : Move m m') :
    Kernel.now m.kernel ≤ Kernel.now m'.kernel := by
  rcases h.kernel with heq | ⟨token, operation, takes⟩ | ⟨gathering, handle, gives⟩
  · rw [heq]
  · exact steady.takes takes
  · exact steady.gives gives

/-- No sequence of moves does. -/
theorem Move.agreeBefore_many (steady : Kernel.Steady κ) (hc : Coherent s m)
    (h : ReflTransGen Move m m') : Kernel.now m.kernel ≤ Kernel.now m'.kernel ∧
      Record.AgreeBefore (Kernel.now m.kernel) m.workload.statistics.records
        m'.workload.statistics.records := by
  induction h with
  | refl => exact ⟨Nat.le_refl _, .refl _ _⟩
  | tail hmoves hm ih =>
      obtain ⟨hle, hagree⟩ := ih
      exact ⟨Nat.le_trans hle (hm.now_le steady),
        hagree.trans ((hm.agreeBefore (hc.moves hmoves)).mono hle)⟩

end

/-! ### Moments of rest -/

/-- The analytical clock stands still within a call. -/
theorem Move.now_eq {m m' : Moment Analytical} (h : Move m m') : m'.kernel.now = m.kernel.now := by
  rcases h.kernel with heq | ⟨token, operation, takes⟩ | ⟨gathering, handle, gives⟩
  · rw [heq]
  · obtain ⟨cost, -, heq⟩ := Analytical.schedule_of_takes takes
    rw [heq]
    rfl
  · obtain ⟨-, cost, -, heq⟩ := Analytical.schedule_of_gives gives
    rw [heq]
    rfl

theorem Move.now_eq_many {m m' : Moment Analytical} (h : ReflTransGen Move m m') :
    m'.kernel.now = m.kernel.now := by
  induction h with
  | refl => rfl
  | tail _ hm ih => exact hm.now_eq.trans ih

/-- From the present tick on the records show the present. -/
theorem Timing.seen_now {g₀ : Graph} {capacity : Capacity} {records : SortedMap NodeId Record}
    {now t : Tick} (h : Timing g₀ capacity records now) (ht : now ≤ t) (id : NodeId) :
    Record.startedBy records t id = (records.find? id).isSome ∧
      Record.endedBy records t id = Record.ended records id := by
  rw [Record.startedBy, Record.endedBy, Record.ended]
  cases hr : records.find? id with
  | none => exact ⟨rfl, rfl⟩
  | some r =>
      have hbegun := Nat.le_trans (h.begun id r hr) ht
      refine ⟨by simp [hbegun], ?_⟩
      cases hf : r.finish with
      | none => simp [hf]
      | some finish =>
          have hended := Nat.le_trans (h.interval id r finish hr hf).2 ht
          simp [hf, hended]

/-- **The records of a run show every moment of rest**: read at a tick that has passed they say which
nodes had started, and which of them had ended, when the run rested last before that tick.  The run had
not ended then, and an event was left. -/
theorem Setup.Rests.seen {s : Setup} {c : AnalyticalConfig} {m : Moment Analytical}
    (h : s.Rests c m) {t : Tick} (ht : t < m.kernel.now) :
    ∃ m₀, s.Rests c m₀ ∧ m₀.workload.isFinished = false ∧ m₀.kernel.next?.isSome = true ∧
      ∀ id, Record.startedBy m.workload.statistics.records t id =
          (m₀.workload.statistics.records.find? id).isSome ∧
        Record.endedBy m.workload.statistics.records t id =
          Record.ended m₀.workload.statistics.records id := by
  have steady := Analytical.conforms.toSteady
  induction h with
  | fire turn settles =>
      -- the run rests at tick zero, and no tick has passed
      have hnow := Move.now_eq_many (turn.moves.tail (.settle settles))
      rw [hnow] at ht
      exact absurd ht (Nat.not_lt_zero _)
  | @next m m₁ m' event k rests goesOn next turn settles ih =>
      have hmoves := turn.moves.tail (.settle settles)
      obtain ⟨-, hagree⟩ := Move.agreeBefore_many steady (rests.coherent.1.withKernel k) hmoves
      rw [show m'.kernel.now = k.now from Move.now_eq_many hmoves] at ht
      -- the call has changed nothing before the tick of its event
      suffices hseen : ∃ m₀, s.Rests c m₀ ∧ m₀.workload.isFinished = false ∧
          m₀.kernel.next?.isSome = true ∧
          ∀ id, Record.startedBy m.workload.statistics.records t id =
              (m₀.workload.statistics.records.find? id).isSome ∧
            Record.endedBy m.workload.statistics.records t id =
              Record.ended m₀.workload.statistics.records id by
        obtain ⟨m₀, rests₀, goesOn₀, next₀, hview⟩ := hseen
        exact ⟨m₀, rests₀, goesOn₀, next₀, fun id =>
          ⟨(hagree t id ht).1.trans (hview id).1, (hagree t id ht).2.trans (hview id).2⟩⟩
      by_cases hpast : t < m.kernel.now
      · exact ih hpast
      · exact ⟨m, rests, goesOn, by rw [next]; rfl,
          rests.punctual.seen_now (Nat.le_of_not_lt hpast)⟩

end TraceReplay
