/-
**Finite maps as lists in ascending key order.**

Everything the library keeps by key (nodes, counts, records, tensors) is kept in a list of entries
whose keys strictly increase.  The order is part of the type, so a map has exactly one
representation: two maps with the same entries are equal, and walking a map visits its keys in
ascending order.

Main definitions:

* `Key` — the key types, which carry a decidable linear order;
* `SortedMap` — the maps, with `find?`, `insert`, `erase`, `keys` and `values`.

Main results:

* `SortedMap.find?_insert`, `SortedMap.find?_erase` — what an update does to every look-up;
* `SortedMap.mem_toList_iff` — the entries of a map are what its look-ups find;
* `SortedMap.ext_find?` — maps with the same look-ups are equal.
-/

set_option relaxedAutoImplicit false
set_option autoImplicit false

namespace TraceReplay

/-- A type whose values can serve as keys: linearly ordered, with decidable comparisons. -/
class Key (κ : Type) extends LT κ where
  /-- Equality of keys is decided. -/
  decEq : DecidableEq κ
  /-- The order of keys is decided. -/
  decLt : ∀ a b : κ, Decidable (a < b)
  /-- No key is below itself. -/
  lt_irrefl : ∀ a : κ, ¬a < a
  /-- The order is transitive. -/
  lt_trans : ∀ {a b c : κ}, a < b → b < c → a < c
  /-- Different keys are comparable. -/
  lt_of_not_lt_of_ne : ∀ {a b : κ}, ¬a < b → a ≠ b → b < a

attribute [reducible, instance] Key.decEq Key.decLt

instance : Key Nat where
  decEq := inferInstance
  decLt := inferInstance
  lt_irrefl := Nat.lt_irrefl
  lt_trans := Nat.lt_trans
  lt_of_not_lt_of_ne h h' := by omega

instance : Key String where
  decEq := inferInstance
  decLt := inferInstance
  lt_irrefl := String.lt_irrefl
  lt_trans := String.lt_trans
  lt_of_not_lt_of_ne h h' :=
    Decidable.byContradiction fun h₁ =>
      h' (String.le_antisymm (String.not_lt.1 h₁) (String.not_lt.1 h))

namespace Entries

variable {κ β : Type} [Key κ]

/-- The keys strictly increase along the list. -/
def Ascending (l : List (κ × β)) : Prop := l.Pairwise fun a b => a.1 < b.1

/-- The value stored under a key. -/
def find? (k : κ) : List (κ × β) → Option β
  | [] => none
  | (k', v) :: l => if k = k' then some v else find? k l

/-- Stores a value, in place of the one already under its key if there is one. -/
def insert (k : κ) (v : β) : List (κ × β) → List (κ × β)
  | [] => [(k, v)]
  | (k', v') :: l =>
      if k < k' then (k, v) :: (k', v') :: l
      else if k = k' then (k, v) :: l
      else (k', v') :: insert k v l

/-- Drops the entry under a key. -/
def erase (k : κ) : List (κ × β) → List (κ × β)
  | [] => []
  | (k', v) :: l => if k = k' then l else (k', v) :: erase k l

theorem mem_of_mem_insert {k : κ} {v : β} {a : κ × β} {l : List (κ × β)}
    (h : a ∈ insert k v l) : a = (k, v) ∨ a ∈ l := by
  induction l with
  | nil => simpa [insert] using h
  | cons e l ih =>
      obtain ⟨k', v'⟩ := e
      rw [insert] at h
      split at h
      · simpa using h
      · split at h
        · rcases List.mem_cons.1 h with h | h
          · exact .inl h
          · exact .inr (List.mem_cons_of_mem _ h)
        · rcases List.mem_cons.1 h with h | h
          · exact .inr (h ▸ List.mem_cons_self)
          · exact (ih h).imp id (List.mem_cons_of_mem _)

theorem Ascending.insert {l : List (κ × β)} (h : Ascending l) (k : κ) (v : β) :
    Ascending (Entries.insert k v l) := by
  induction l with
  | nil => simp [Entries.insert, Ascending]
  | cons e l ih =>
      obtain ⟨k', v'⟩ := e
      obtain ⟨hk, hl⟩ := List.pairwise_cons.1 h
      rw [Entries.insert]
      split
      next h₁ =>
        refine List.pairwise_cons.2 ⟨fun a ha => ?_, h⟩
        rcases List.mem_cons.1 ha with rfl | ha
        · exact h₁
        · exact Key.lt_trans h₁ (hk a ha)
      next h₁ =>
        split
        next h₂ => subst h₂; exact List.pairwise_cons.2 ⟨hk, hl⟩
        next h₂ =>
          refine List.pairwise_cons.2 ⟨fun a ha => ?_, ih hl⟩
          rcases mem_of_mem_insert ha with rfl | ha
          · exact Key.lt_of_not_lt_of_ne h₁ h₂
          · exact hk a ha

theorem erase_sublist (k : κ) (l : List (κ × β)) : (erase k l).Sublist l := by
  induction l with
  | nil => exact .slnil
  | cons e l ih =>
      obtain ⟨k', v⟩ := e
      rw [erase]
      split
      · exact List.sublist_cons_self _ _
      · exact ih.cons_cons _

theorem find?_insert (k k' : κ) (v : β) (l : List (κ × β)) :
    find? k' (insert k v l) = if k' = k then some v else find? k' l := by
  induction l with
  | nil => simp [insert, find?]
  | cons e l ih =>
      obtain ⟨k₀, v₀⟩ := e
      rw [insert]
      split
      · simp [find?]
      · split
        next h => subst h; by_cases h' : k' = k <;> simp [find?, h']
        next h =>
          by_cases h' : k' = k₀
          · subst h'; simp [find?, Ne.symm h]
          · simp [find?, h', ih]

theorem find?_eq_none_of_forall_lt {k : κ} {l : List (κ × β)} (h : ∀ a ∈ l, k < a.1) :
    find? k l = none := by
  induction l with
  | nil => rfl
  | cons e l ih =>
      obtain ⟨k', v⟩ := e
      have hk : k ≠ k' := fun h' => Key.lt_irrefl k (by simpa [← h'] using h _ List.mem_cons_self)
      rw [find?, if_neg hk]
      exact ih fun a ha => h a (List.mem_cons_of_mem _ ha)

theorem find?_erase {l : List (κ × β)} (h : Ascending l) (k k' : κ) :
    find? k' (erase k l) = if k' = k then none else find? k' l := by
  induction l with
  | nil => simp [erase, find?]
  | cons e l ih =>
      obtain ⟨k₀, v₀⟩ := e
      obtain ⟨hk, hl⟩ := List.pairwise_cons.1 h
      rw [erase]
      split
      next h₁ =>
        subst h₁
        by_cases h' : k' = k
        · subst h'; simp [find?_eq_none_of_forall_lt hk]
        · simp [find?, h']
      next h₁ =>
        by_cases h' : k' = k₀
        · subst h'; simp [find?, Ne.symm h₁]
        · simp [find?, h', ih hl]

theorem mem_iff_find? {l : List (κ × β)} (h : Ascending l) (k : κ) (v : β) :
    (k, v) ∈ l ↔ find? k l = some v := by
  induction l with
  | nil => simp [find?]
  | cons e l ih =>
      obtain ⟨k', v'⟩ := e
      obtain ⟨hk, hl⟩ := List.pairwise_cons.1 h
      by_cases h' : k = k'
      · subst h'
        have hn : (k, v) ∉ l := fun hm => Key.lt_irrefl k (hk _ hm)
        simp [find?, hn, eq_comm]
      · simp [find?, h', ih hl]

theorem eq_of_find?_eq {l l' : List (κ × β)} (h : Ascending l) (h' : Ascending l')
    (he : ∀ k, find? k l = find? k l') : l = l' := by
  induction l generalizing l' with
  | nil =>
      cases l' with
      | nil => rfl
      | cons e l' => obtain ⟨k, v⟩ := e; simpa [find?] using he k
  | cons e l ih =>
      obtain ⟨k, v⟩ := e
      obtain ⟨hk, hl⟩ := List.pairwise_cons.1 h
      cases l' with
      | nil => simpa [find?] using he k
      | cons e' l' =>
          obtain ⟨k', v'⟩ := e'
          obtain ⟨hk', hl'⟩ := List.pairwise_cons.1 h'
          have hkk : k = k' := by
            have h₁ : (k, v) ∈ (k', v') :: l' :=
              (mem_iff_find? h' k v).2 ((he k).symm.trans (by simp [find?]))
            have h₂ : (k', v') ∈ (k, v) :: l :=
              (mem_iff_find? h k' v').2 ((he k').trans (by simp [find?]))
            rcases List.mem_cons.1 h₁ with h₃ | h₃
            · exact (Prod.mk.inj h₃).1
            · rcases List.mem_cons.1 h₂ with h₄ | h₄
              · exact (Prod.mk.inj h₄).1.symm
              · exact absurd (Key.lt_trans (hk _ h₄) (hk' _ h₃)) (Key.lt_irrefl k)
          subst hkk
          have hv : v = v' := by simpa [find?] using he k
          subst hv
          refine congrArg _ (ih hl hl' fun k₁ => ?_)
          by_cases h₁ : k₁ = k
          · subst h₁
            rw [find?_eq_none_of_forall_lt hk, find?_eq_none_of_forall_lt hk']
          · simpa [find?, h₁] using he k₁

end Entries

/-- A finite map, held as the list of its entries in ascending key order. -/
structure SortedMap (κ β : Type) [Key κ] where
  /-- The entries, smallest key first. -/
  toList : List (κ × β)
  /-- The keys strictly increase. -/
  ascending : Entries.Ascending toList

namespace SortedMap

variable {κ β : Type} [Key κ]

theorem ext_toList {m m' : SortedMap κ β} (h : m.toList = m'.toList) : m = m' := by
  cases m; cases m'; cases h; rfl

/-- The map without entries. -/
def empty : SortedMap κ β := ⟨[], List.Pairwise.nil⟩

instance : EmptyCollection (SortedMap κ β) := ⟨empty⟩

instance : Inhabited (SortedMap κ β) := ⟨empty⟩

/-- The value stored under a key. -/
def find? (m : SortedMap κ β) (k : κ) : Option β := Entries.find? k m.toList

/-- Whether a key has a value. -/
def contains (m : SortedMap κ β) (k : κ) : Bool := (m.find? k).isSome

/-- Stores a value, in place of the one already under its key if there is one. -/
def insert (m : SortedMap κ β) (k : κ) (v : β) : SortedMap κ β :=
  ⟨Entries.insert k v m.toList, m.ascending.insert k v⟩

/-- Drops the entry under a key. -/
def erase (m : SortedMap κ β) (k : κ) : SortedMap κ β :=
  ⟨Entries.erase k m.toList, List.Pairwise.sublist (Entries.erase_sublist k _) m.ascending⟩

/-- Number of entries. -/
def size (m : SortedMap κ β) : Nat := m.toList.length

/-- Whether there are no entries. -/
def isEmpty (m : SortedMap κ β) : Bool := m.toList.isEmpty

/-- The keys, ascending. -/
def keys (m : SortedMap κ β) : List κ := m.toList.map Prod.fst

/-- The values, in the order of their keys. -/
def values (m : SortedMap κ β) : List β := m.toList.map Prod.snd

/-! ### Look-ups -/

@[simp] theorem find?_empty (k : κ) : (∅ : SortedMap κ β).find? k = none := rfl

theorem find?_insert (m : SortedMap κ β) (k k' : κ) (v : β) :
    (m.insert k v).find? k' = if k' = k then some v else m.find? k' :=
  Entries.find?_insert k k' v m.toList

@[simp] theorem find?_insert_self (m : SortedMap κ β) (k : κ) (v : β) :
    (m.insert k v).find? k = some v := by
  simp [find?_insert]

theorem find?_insert_of_ne (m : SortedMap κ β) {k k' : κ} (v : β) (h : k' ≠ k) :
    (m.insert k v).find? k' = m.find? k' := by
  simp [find?_insert, h]

theorem find?_erase (m : SortedMap κ β) (k k' : κ) :
    (m.erase k).find? k' = if k' = k then none else m.find? k' :=
  Entries.find?_erase m.ascending k k'

@[simp] theorem find?_erase_self (m : SortedMap κ β) (k : κ) : (m.erase k).find? k = none := by
  simp [find?_erase]

theorem find?_erase_of_ne (m : SortedMap κ β) {k k' : κ} (h : k' ≠ k) :
    (m.erase k).find? k' = m.find? k' := by
  simp [find?_erase, h]

theorem mem_toList_iff (m : SortedMap κ β) (k : κ) (v : β) :
    (k, v) ∈ m.toList ↔ m.find? k = some v :=
  Entries.mem_iff_find? m.ascending k v

theorem keys_pairwise (m : SortedMap κ β) : m.keys.Pairwise (· < ·) :=
  List.pairwise_map.2 m.ascending

/-- **Extensionality**: maps with the same look-ups are equal. -/
theorem ext_find? {m m' : SortedMap κ β} (h : ∀ k, m.find? k = m'.find? k) : m = m' :=
  ext_toList (Entries.eq_of_find?_eq m.ascending m'.ascending h)

end SortedMap

end TraceReplay
