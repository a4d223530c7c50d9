/-
**What the records say about time.**

Under a clock that never goes back the records of a run are a schedule: no node starts before its
parents have ended, and at no tick more nodes of a resource are active than the resource has slots.  For
ticks still to come the second follows from the slots taken, because a node that is active then has no
end yet.  For ticks that have passed nothing changes any more: a node issued now was not active then,
and a node that ends now was.

Main definitions:

* `activeOn` — how many nodes of a resource are active at a tick;
* `Timing` — the records are a schedule.

Main results:

* `Timing.start`, `Timing.close`, `Timing.skip`, `Timing.later` — requests, completions and time passing
  keep it.
-/

import TraceReplay.Proofs.Engine.Slots

set_option relaxedAutoImplicit false
set_option autoImplicit false

namespace TraceReplay

/-- How many nodes of a resource are active at a tick. -/
def activeOn (g₀ : Graph) (records : SortedMap NodeId Record) (r : Resource) (t : Tick) : Nat :=
  records.count fun id record => resourceOf g₀ id = some r && record.activeAt t

/-- The records are a schedule, as far as time has come. -/
structure Timing (g₀ : Graph) (capacity : Capacity) (records : SortedMap NodeId Record)
    (now : Tick) : Prop where
  begun : ∀ id r, records.find? id = some r → r.start ≤ now
  interval : ∀ id r finish, records.find? id = some r → r.finish = some finish →
    r.start ≤ finish ∧ finish ≤ now
  /-- A node starts after its parents have ended. -/
  ordered : ∀ id r n, records.find? id = some r → g₀.lookup id = some n → ∀ p ∈ n.parents,
    ∃ rp finish, records.find? p = some rp ∧ rp.finish = some finish ∧ finish ≤ r.start
  /-- No resource has more active nodes than slots. -/
  active : ∀ r t, activeOn g₀ records r t ≤ capacity.get r

namespace Timing

variable {g₀ : Graph} {capacity : Capacity} {records : SortedMap NodeId Record} {now : Tick}
variable {id : NodeId} {record : Record}

theorem initial (g₀ : Graph) (capacity : Capacity) (now : Tick) : Timing g₀ capacity ∅ now := by
  refine ⟨?_, ?_, ?_, fun r t => Nat.zero_le _⟩
  · intro id r hr
    cases hr
  · intro id r finish hr
    cases hr
  · intro id r n hr
    cases hr

/-- Time passes. -/
theorem later (h : Timing g₀ capacity records now) {now' : Tick} (hle : now ≤ now') :
    Timing g₀ capacity records now' :=
  { h with
    begun := fun id r hr => Nat.le_trans (h.begun id r hr) hle
    interval := fun id r finish hr hf =>
      ⟨(h.interval id r finish hr hf).1, Nat.le_trans (h.interval id r finish hr hf).2 hle⟩ }

/-- From now on only nodes without an end are active. -/
theorem active_le_running (h : Timing g₀ capacity records now) {t : Tick} (ht : now ≤ t)
    (r : Resource) : activeOn g₀ records r t ≤ runningOn g₀ records r := by
  refine SortedMap.count_le_of_imp fun id record hr hactive => ?_
  rw [Bool.and_eq_true] at hactive ⊢
  refine ⟨?_, hactive.1⟩
  cases hf : record.finish with
  | none => rfl
  | some finish =>
      have hle : finish ≤ t := Nat.le_trans (h.interval id record finish hr hf).2 ht
      have hlt : record.start ≤ t ∧ t < finish := by simpa [Record.activeAt, hf] using hactive.2
      exact absurd hlt.2 (Nat.not_lt.2 hle)

/-- What holds of a new record, apart from the number of active nodes. -/
theorem opened (h : Timing g₀ capacity records now) (hnone : records.find? id = none)
    (hstart : record.start = now) (hfinish : ∀ finish, record.finish = some finish → finish = now)
    (hparents : ∀ n, g₀.lookup id = some n → ∀ p ∈ n.parents, Record.ended records p = true)
    (hactive : ∀ r t, activeOn g₀ (records.insert id record) r t ≤ capacity.get r) :
    Timing g₀ capacity (records.insert id record) now where
  active := hactive
  begun := by
    intro id' r hr
    rcases SortedMap.eq_or_find?_of_insert hr with ⟨rfl, rfl⟩ | hr
    · exact Nat.le_of_eq hstart
    · exact h.begun id' r hr
  interval := by
    intro id' r finish hr hf
    rcases SortedMap.eq_or_find?_of_insert hr with ⟨rfl, rfl⟩ | hr
    · rw [hstart, hfinish finish hf]
      exact ⟨Nat.le_refl _, Nat.le_refl _⟩
    · exact h.interval id' r finish hr hf
  ordered := by
    intro id' r n hr hn p hp
    -- whoever had a record before still has it
    have hkeep {p : NodeId} {rp : Record} (hrp : records.find? p = some rp) :
        (records.insert id record).find? p = some rp := by
      rw [SortedMap.find?_insert_of_ne _ _ ?_, hrp]
      rintro rfl
      rw [hnone] at hrp
      cases hrp
    rcases SortedMap.eq_or_find?_of_insert hr with ⟨rfl, rfl⟩ | hr
    · obtain ⟨rp, finish, hrp, hf⟩ := Record.ended_iff.1 (hparents n hn p hp)
      refine ⟨rp, finish, hkeep hrp, hf, ?_⟩
      rw [hstart]
      exact (h.interval p rp finish hrp hf).2
    · obtain ⟨rp, finish, hrp, hf, hle⟩ := h.ordered id' r n hr hn p hp
      exact ⟨rp, finish, hkeep hrp, hf, hle⟩

/-- A node is issued. -/
theorem start (h : Timing g₀ capacity records now) (hnone : records.find? id = none)
    (hstart : record.start = now) (hrunning : record.finish = none)
    (hparents : ∀ n, g₀.lookup id = some n → ∀ p ∈ n.parents, Record.ended records p = true)
    (hslots : ∀ r, runningOn g₀ (records.insert id record) r ≤ capacity.get r) :
    Timing g₀ capacity (records.insert id record) now := by
  refine h.opened hnone hstart (by simp [hrunning]) hparents fun r t => ?_
  have hcount : activeOn g₀ (records.insert id record) r t = activeOn g₀ records r t +
      if (resourceOf g₀ id = some r && record.activeAt t) = true then 1 else 0 :=
    SortedMap.count_insert_of_none hnone
  -- from now on the active nodes are in flight; at earlier ticks the new record is not active
  by_cases ht : now ≤ t
  · refine Nat.le_trans ?_ (hslots r)
    have hold := h.active_le_running ht r
    have hnew : runningOn g₀ (records.insert id record) r = runningOn g₀ records r +
        if (record.finish.isNone && resourceOf g₀ id = some r) = true then 1 else 0 :=
      SortedMap.count_insert_of_none hnone
    rw [hcount, hnew]
    simp only [Record.activeAt, hstart, hrunning, ht, decide_true, Bool.and_true, Option.isNone_none,
      Bool.true_and]
    omega
  · rw [hcount]
    simp only [Record.activeAt, hstart, ht, decide_false, Bool.false_and, Bool.and_false,
      Bool.false_eq_true, ↓reduceIte, Nat.add_zero]
    exact h.active r t

/-- A skipped node is active at no tick. -/
theorem skip (h : Timing g₀ capacity records now) (hnone : records.find? id = none)
    (hstart : record.start = now) (hended : record.finish = some now)
    (hparents : ∀ n, g₀.lookup id = some n → ∀ p ∈ n.parents, Record.ended records p = true) :
    Timing g₀ capacity (records.insert id record) now := by
  refine h.opened hnone hstart (by simp [hended]) hparents fun r t => ?_
  have hidle : record.activeAt t = false := by
    simp [Record.activeAt, hstart, hended]
  have hcount : activeOn g₀ (records.insert id record) r t = activeOn g₀ records r t := by
    rw [activeOn, SortedMap.count_insert_of_none hnone, hidle]
    simp [activeOn]
  rw [hcount]
  exact h.active r t

/-- A node in flight ends; it was active until now. -/
theorem close (h : Timing g₀ capacity records now) (hr : records.find? id = some record)
    (hrunning : record.finish = none) :
    Timing g₀ capacity (records.insert id { record with finish := some now }) now where
  begun := by
    intro id' r hr'
    rcases SortedMap.eq_or_find?_of_insert hr' with ⟨rfl, rfl⟩ | hr'
    · exact h.begun id' record hr
    · exact h.begun id' r hr'
  interval := by
    intro id' r finish hr' hf
    rcases SortedMap.eq_or_find?_of_insert hr' with ⟨rfl, rfl⟩ | hr'
    · cases hf
      exact ⟨h.begun id' record hr, Nat.le_refl _⟩
    · exact h.interval id' r finish hr' hf
  ordered := by
    intro id' r n hr' hn p hp
    -- an end does not change a start
    have hbefore : ∃ r₀, records.find? id' = some r₀ ∧ r₀.start = r.start := by
      rcases SortedMap.eq_or_find?_of_insert hr' with ⟨rfl, rfl⟩ | hr'
      · exact ⟨record, hr, rfl⟩
      · exact ⟨r, hr', rfl⟩
    obtain ⟨r₀, hr₀, hstart⟩ := hbefore
    obtain ⟨rp, finish, hrp, hf, hle⟩ := h.ordered id' r₀ n hr₀ hn p hp
    have hne : p ≠ id := by
      rintro rfl
      rw [hr] at hrp
      cases hrp
      rw [hrunning] at hf
      cases hf
    exact ⟨rp, finish, by rwa [SortedMap.find?_insert_of_ne _ _ hne], hf, hstart ▸ hle⟩
  active := by
    intro r t
    refine Nat.le_trans ?_ (h.active r t)
    have hcount := SortedMap.count_insert_of_some (v := { record with finish := some now })
      (p := fun id record => resourceOf g₀ id = some r && record.activeAt t) hr
    -- whoever is active with the end was active without it
    have himp : Record.activeAt { record with finish := some now } t = true →
        record.activeAt t = true := by
      simp only [Record.activeAt, hrunning, Bool.and_eq_true, decide_eq_true_eq, and_true]
      exact fun hactive => hactive.1
    rw [activeOn, activeOn]
    by_cases hactive : Record.activeAt { record with finish := some now } t = true
    · rw [hactive, himp hactive] at hcount
      omega
    · simp only [hactive, Bool.and_false, Bool.false_eq_true, ↓reduceIte, Nat.add_zero] at hcount
      omega

end Timing

end TraceReplay
