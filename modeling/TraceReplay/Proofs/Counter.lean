/-
**Calculations that stay in range.**

Counters stop below 2^64, and a sum or a product that does not is a fault.  So is a negative difference,
but that one says that something was ended before it began, which never happens.  A calculation is
*bounded* if its only faults are of the first kind.  The lemmas below close the notion under the
operations from which the engine's calculations are made.

Main definitions:

* `Fault.isOverflow` — a counter leaves its range;
* `Bounded` — a calculation with no other faults.

Main results:

* `Bounded.bind`, `Bounded.foldlM`, `Bounded.mapM` — what is made of bounded calculations is bounded;
* `Counter.foldl_max_le_iff`, `Counter.foldl_max_mem` — the greatest of some counters;
* `Counter.sum_eq` — the sum of some counters, if it is one;
* `Except.mapM_eq_ok`, `Except.mapM_eq_error` — the same calculation for all members of a list;
* `Except.foldlM_outcome` — a calculation along a list.
-/

import Mathlib.Algebra.Ring.Nat
import TraceReplay.Counter

set_option relaxedAutoImplicit false
set_option autoImplicit false

namespace TraceReplay

/-- Whether a fault says that a sum or a product leaves the range of counters. -/
def Fault.isOverflow : Fault → Bool
  | sumTooLarge | productTooLarge => true
  | _ => false

/-- A calculation that faults only because a counter leaves its range. -/
def Bounded {α : Type} (x : Except Fault α) : Prop := ∀ f, x = .error f → f.isOverflow = true

namespace Bounded

variable {α β : Type}

theorem ok (a : α) : Bounded (.ok a) := by
  rintro f ⟨⟩

theorem add (a b : Nat) : Bounded (Counter.add a b) := by
  intro f h
  unfold Counter.add at h
  split at h
  · cases h
  · cases h
    rfl

theorem sub {a b : Nat} (h : b ≤ a) : Bounded (Counter.sub a b) := by
  rw [Counter.sub_of_le h]
  exact ok _

theorem mul (a b : Nat) : Bounded (Counter.mul a b) := by
  intro f h
  unfold Counter.mul at h
  split at h
  · cases h
  · cases h
    rfl

/-- What follows a calculation has to be bounded for its result only. -/
theorem bind_ok {x : Except Fault α} {g : α → Except Fault β} (hx : Bounded x)
    (hg : ∀ a, x = .ok a → Bounded (g a)) : Bounded (x >>= g) := by
  intro f h
  cases x with
  | ok a => exact hg a rfl f h
  | error f' => cases h; exact hx _ rfl

theorem bind {x : Except Fault α} {g : α → Except Fault β} (hx : Bounded x)
    (hg : ∀ a, Bounded (g a)) : Bounded (x >>= g) :=
  hx.bind_ok fun a _ => hg a

theorem map {x : Except Fault α} (hx : Bounded x) (g : α → β) : Bounded (x.map g) := by
  intro f h
  cases x with
  | ok a => cases h
  | error f' => cases h; exact hx _ rfl

theorem foldlM {g : β → α → Except Fault β} : ∀ {l : List α} (b : β),
    (∀ b, ∀ a ∈ l, Bounded (g b a)) → Bounded (l.foldlM g b) := by
  intro l
  induction l with
  | nil => exact fun b _ => ok b
  | cons a l ih =>
      intro b hg
      exact (hg b a List.mem_cons_self).bind fun b =>
        ih b fun b a ha => hg b a (List.mem_cons_of_mem _ ha)

theorem mapM {g : α → Except Fault β} (hg : ∀ a, Bounded (g a)) (l : List α) :
    Bounded (l.mapM g) := by
  induction l with
  | nil => exact ok []
  | cons a l ih =>
      rw [List.mapM_cons]
      exact (hg a).bind fun b => ih.bind fun bs => ok (b :: bs)

end Bounded

/-! ### The greatest of some counters -/

namespace Counter

theorem foldl_max_le_iff {l : List Nat} : ∀ {a b : Nat},
    l.foldl max a ≤ b ↔ a ≤ b ∧ ∀ n ∈ l, n ≤ b := by
  induction l with
  | nil => simp
  | cons n l ih =>
      intro a b
      rw [List.foldl_cons, ih, Nat.max_le, and_assoc, List.forall_mem_cons]

theorem le_foldl_max {l : List Nat} {n : Nat} (a : Nat) (h : n ∈ l) : n ≤ l.foldl max a :=
  (foldl_max_le_iff.1 (Nat.le_refl _)).2 n h

/-- The greatest of some counters is one of them. -/
theorem foldl_max_mem (l : List Nat) : ∀ a : Nat, l.foldl max a = a ∨ l.foldl max a ∈ l := by
  induction l with
  | nil => exact fun a => .inl rfl
  | cons n l ih =>
      intro a
      rw [List.foldl_cons]
      rcases ih (max a n) with heq | hmem
      · rcases Nat.le_total a n with hle | hle
        · rw [Nat.max_eq_right hle] at heq ⊢
          exact .inr (by rw [heq]; exact List.mem_cons_self)
        · rw [Nat.max_eq_left hle] at heq ⊢
          exact .inl heq
      · exact .inr (List.mem_cons_of_mem _ hmem)

/-! ### Sums -/

theorem add_of_le {a b : Nat} (h : limit ≤ a + b) : add a b = .error .sumTooLarge :=
  if_neg (Nat.not_lt.2 h)

/-- The sum of counters is calculated if it is a counter, and is too large otherwise. -/
theorem foldlM_add {ns : List Nat} : ∀ {a : Nat}, a < limit →
    ns.foldlM add a = if a + ns.sum < limit then .ok (a + ns.sum) else .error .sumTooLarge := by
  induction ns with
  | nil => exact fun h => (if_pos h).symm
  | cons n ns ih =>
      intro a h
      rw [List.foldlM_cons, List.sum_cons, ← Nat.add_assoc]
      by_cases hn : a + n < limit
      · rw [add_of_lt hn]
        exact ih hn
      · -- once a sum is too large, all later ones would be
        have hle := Nat.not_lt.1 hn
        rw [add_of_le hle, if_neg (Nat.not_lt.2 (Nat.le_trans hle (Nat.le_add_right _ _)))]
        rfl

theorem sum_eq (ns : List Nat) :
    sum ns = if ns.sum < limit then .ok ns.sum else .error .sumTooLarge := by
  have h : ns.foldlM add 0 = _ := foldlM_add (by decide)
  rwa [Nat.zero_add] at h

end Counter

/-! ### Calculations that may fail -/

namespace Except

variable {ε α β : Type} {g : α → Except ε β}

theorem exists_ok_of_isSome {x : Except ε α} (h : x.toOption.isSome = true) : ∃ a, x = .ok a := by
  cases x with
  | error e => cases h
  | ok a => exact ⟨a, rfl⟩

theorem mapM_eq_ok {f : α → β} {l : List α} (h : ∀ a ∈ l, g a = .ok (f a)) :
    l.mapM g = .ok (l.map f) := by
  induction l with
  | nil => rfl
  | cons a l ih =>
      obtain ⟨ha, hl⟩ := List.forall_mem_cons.1 h
      rw [List.mapM_cons, ha, ih hl]
      rfl

/-- A calculation along a list goes through, or stops at the first member that it cannot take. -/
theorem foldlM_outcome (step : β → α → Except ε β) : ∀ (l : List α) (b : β),
    (∃ c, l.foldlM step b = .ok c) ∨ ∃ before a after c e, l = before ++ a :: after ∧
      before.foldlM step b = .ok c ∧ step c a = .error e ∧ l.foldlM step b = .error e
  | [], b => .inl ⟨b, rfl⟩
  | a :: l, b => by
      cases ha : step b a with
      | error e =>
          refine .inr ⟨[], a, l, b, e, rfl, rfl, ha, ?_⟩
          rw [List.foldlM_cons, ha]
          rfl
      | ok b' =>
          have hcons (l : List α) : (a :: l).foldlM step b = l.foldlM step b' := by
            rw [List.foldlM_cons, ha]
            rfl
          rcases foldlM_outcome step l b' with ⟨c, hc⟩ | ⟨before, a', after, c, e, rfl, hc, hstep, he⟩
          · exact .inl ⟨c, (hcons l).trans hc⟩
          · exact .inr ⟨a :: before, a', after, c, e, rfl, (hcons before).trans hc, hstep,
              (hcons _).trans he⟩

/-- If the calculation stops for one reason only, and does so for some member, it stops for the list. -/
theorem mapM_eq_error {e : ε} {l : List α} (h : ∀ a ∈ l, (∃ b, g a = .ok b) ∨ g a = .error e)
    (hbad : ∃ a ∈ l, g a = .error e) : l.mapM g = .error e := by
  induction l with
  | nil =>
      obtain ⟨a, ha, -⟩ := hbad
      cases ha
  | cons a l ih =>
      obtain ⟨ha, hl⟩ := List.forall_mem_cons.1 h
      rw [List.mapM_cons]
      rcases ha with ⟨b, hb⟩ | hb
      · have hrest : ∃ a ∈ l, g a = .error e := by
          obtain ⟨a', ha', hbad⟩ := hbad
          rcases List.mem_cons.1 ha' with rfl | ha'
          · cases hb.symm.trans hbad
          · exact ⟨a', ha', hbad⟩
        rw [hb, ih hl hrest]
        rfl
      · rw [hb]
        rfl

end Except

end TraceReplay
