/-
**Ascending lists of ids.**

A set of ids is kept as the list of its members in ascending order, each once.

Main definitions:

* `insertAscending`, `ascending` — putting an id into such a list, and the list of some ids.

Main results:

* `mem_ascending` — it has the members of the list it is made from;
* `ascending_pairwise` — it is strictly ascending;
* `ascending_congr` — lists with the same members give the same list.
-/

set_option relaxedAutoImplicit false
set_option autoImplicit false

namespace TraceReplay

/-- Puts a number into an ascending list, unless it is there already. -/
def insertAscending (n : Nat) : List Nat → List Nat
  | [] => [n]
  | m :: ms => if n < m then n :: m :: ms else if n = m then m :: ms else m :: insertAscending n ms

/-- The numbers of a list in ascending order, each once. -/
def ascending (ns : List Nat) : List Nat := ns.foldr insertAscending []

theorem mem_insertAscending {n k : Nat} {ms : List Nat} :
    k ∈ insertAscending n ms ↔ k = n ∨ k ∈ ms := by
  induction ms with
  | nil => simp [insertAscending]
  | cons m ms ih =>
      rw [insertAscending]
      split
      · simp
      · split
        next h => subst h; simp
        next => simp [ih, or_left_comm]

theorem insertAscending_pairwise {n : Nat} {ms : List Nat} (h : ms.Pairwise (· < ·)) :
    (insertAscending n ms).Pairwise (· < ·) := by
  induction ms with
  | nil => simp [insertAscending]
  | cons m ms ih =>
      obtain ⟨hm, hms⟩ := List.pairwise_cons.1 h
      rw [insertAscending]
      split
      next h₁ =>
        refine List.pairwise_cons.2 ⟨fun k hk => ?_, h⟩
        rcases List.mem_cons.1 hk with rfl | hk
        · exact h₁
        · exact Nat.lt_trans h₁ (hm k hk)
      next h₁ =>
        split
        · exact h
        next h₂ =>
          refine List.pairwise_cons.2 ⟨fun k hk => ?_, ih hms⟩
          rcases mem_insertAscending.1 hk with rfl | hk
          · omega
          · exact hm k hk

@[simp] theorem mem_ascending {k : Nat} {ns : List Nat} : k ∈ ascending ns ↔ k ∈ ns := by
  induction ns with
  | nil => simp [ascending]
  | cons n ns ih =>
      show k ∈ insertAscending n (ascending ns) ↔ _
      rw [mem_insertAscending, ih, List.mem_cons]

theorem ascending_pairwise (ns : List Nat) : (ascending ns).Pairwise (· < ·) := by
  induction ns with
  | nil => exact .nil
  | cons n ns ih => exact insertAscending_pairwise ih

/-- Strictly ascending lists with the same members are equal. -/
theorem eq_of_mem_iff_of_pairwise {ns ms : List Nat} (hn : ns.Pairwise (· < ·))
    (hm : ms.Pairwise (· < ·)) (h : ∀ k, k ∈ ns ↔ k ∈ ms) : ns = ms := by
  induction ns generalizing ms with
  | nil =>
      cases ms with
      | nil => rfl
      | cons m ms => exact absurd ((h m).2 List.mem_cons_self) List.not_mem_nil
  | cons n ns ih =>
      cases ms with
      | nil => exact absurd ((h n).1 List.mem_cons_self) List.not_mem_nil
      | cons m ms =>
          obtain ⟨hn₁, hn₂⟩ := List.pairwise_cons.1 hn
          obtain ⟨hm₁, hm₂⟩ := List.pairwise_cons.1 hm
          have hnm : n = m := by
            rcases List.mem_cons.1 ((h n).1 List.mem_cons_self) with h₁ | h₁
            · exact h₁
            · rcases List.mem_cons.1 ((h m).2 List.mem_cons_self) with h₂ | h₂
              · exact h₂.symm
              · exact absurd (hn₁ m h₂) (Nat.lt_asymm (hm₁ n h₁))
          subst hnm
          refine congrArg _ (ih hn₂ hm₂ fun k => ?_)
          constructor
          · intro hk
            rcases List.mem_cons.1 ((h k).1 (List.mem_cons_of_mem _ hk)) with rfl | hk'
            · exact absurd (hn₁ k hk) (Nat.lt_irrefl k)
            · exact hk'
          · intro hk
            rcases List.mem_cons.1 ((h k).2 (List.mem_cons_of_mem _ hk)) with rfl | hk'
            · exact absurd (hm₁ k hk) (Nat.lt_irrefl k)
            · exact hk'

/-- Lists with the same members have the same ascending list. -/
theorem ascending_congr {ns ms : List Nat} (h : ∀ k, k ∈ ns ↔ k ∈ ms) :
    ascending ns = ascending ms :=
  eq_of_mem_iff_of_pairwise (ascending_pairwise ns) (ascending_pairwise ms) fun k => by simp [h k]

end TraceReplay
