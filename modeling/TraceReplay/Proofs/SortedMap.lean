/-
**Counting and changing the entries of a finite map.**

The engine keeps counts of what its maps hold: slots taken, handles out, parents to wait for.  To
compare such a count with the map it counts, this module says how the number of entries with a
property changes when the map does.  Everything comes from two permutations: a map with a key is that
entry and the map without the key, and storing a value is putting the entry in front of the map
without the key.

A change of all values leaves the keys, so that it commutes with the operations.

Main definitions:

* `SortedMap.count` — the number of entries with a property;
* `SortedMap.mapValues` — the map with its values changed.

Main results:

* `SortedMap.perm_of_find?`, `SortedMap.perm_insert` — the two permutations;
* `SortedMap.count_insert_of_none`, `SortedMap.count_insert_of_some`, `SortedMap.count_erase_add` —
  what an update does to a count;
* `SortedMap.ncard_setOf` — a count is the number of keys with the property;
* `SortedMap.size_insert_of_some`, `SortedMap.size_erase` — the same for the number of all entries;
* `SortedMap.mapValues_insert`, `SortedMap.mapValues_erase` — operations on a map with other values.
-/

import Mathlib.Data.Set.Card
import TraceReplay.SortedMap

set_option relaxedAutoImplicit false
set_option autoImplicit false

namespace TraceReplay

namespace SortedMap

variable {κ β : Type} [Key κ] {m : SortedMap κ β} {k : κ} {v w : β} {p : κ → β → Bool}

/-! ### Entries -/

/-- An entry of an updated map is the new one or an old one. -/
theorem eq_or_find?_of_insert {k' : κ} {v' : β} (h : (m.insert k v).find? k' = some v') :
    k' = k ∧ v' = v ∨ m.find? k' = some v' := by
  rw [find?_insert] at h
  split at h
  next hk => exact .inl ⟨hk, (Option.some.inj h).symm⟩
  next => exact .inr h

theorem erase_eq_of_none (h : m.find? k = none) : m.erase k = m := by
  refine ext_find? fun k' => ?_
  rw [find?_erase]
  split
  next h' => rw [h', h]
  next => rfl

theorem insert_insert (m : SortedMap κ β) (k : κ) (v w : β) :
    (m.insert k v).insert k w = m.insert k w := by
  refine ext_find? fun k' => ?_
  by_cases h : k' = k
  · simp [h]
  · simp [find?_insert_of_ne _ _ h]

theorem mem_values_iff (m : SortedMap κ β) (v : β) : v ∈ m.values ↔ ∃ k, m.find? k = some v := by
  simp only [values, List.mem_map, Prod.exists, exists_eq_right, mem_toList_iff]

theorem nodup_toList (m : SortedMap κ β) : m.toList.Nodup := by
  refine List.Pairwise.imp ?_ m.ascending
  intro a b h hab
  rw [hab] at h
  exact Key.lt_irrefl b.1 h

/-- A map with a key is that entry and the map without the key. -/
theorem perm_of_find? (h : m.find? k = some v) : m.toList.Perm ((k, v) :: (m.erase k).toList) := by
  have hk : (k, v) ∉ (m.erase k).toList := by
    rw [mem_toList_iff, find?_erase_self]
    simp
  rw [List.perm_ext_iff_of_nodup m.nodup_toList (List.nodup_cons.2 ⟨hk, (m.erase k).nodup_toList⟩)]
  intro ⟨k', v'⟩
  rw [List.mem_cons, mem_toList_iff, mem_toList_iff, find?_erase]
  by_cases hk' : k' = k
  · subst hk'
    simp [h, eq_comm]
  · simp [hk']

/-- Storing a value is putting the entry in front of the map without the key. -/
theorem perm_insert (m : SortedMap κ β) (k : κ) (v : β) :
    (m.insert k v).toList.Perm ((k, v) :: (m.erase k).toList) := by
  have h : (m.insert k v).erase k = m.erase k := by
    refine ext_find? fun k' => ?_
    rw [find?_erase, find?_erase, find?_insert]
    split <;> rfl
  have := perm_of_find? (find?_insert_self m k v)
  rwa [h] at this

/-! ### Counting -/

/-- The number of entries with a property. -/
def count (m : SortedMap κ β) (p : κ → β → Bool) : Nat := m.toList.countP fun e => p e.1 e.2

@[simp] theorem count_empty (p : κ → β → Bool) : (∅ : SortedMap κ β).count p = 0 := rfl

theorem count_erase_add (h : m.find? k = some v) :
    (m.erase k).count p + (if p k v then 1 else 0) = m.count p := by
  rw [count, count, (perm_of_find? h).countP_eq, List.countP_cons]

theorem count_insert (m : SortedMap κ β) (k : κ) (v : β) (p : κ → β → Bool) :
    (m.insert k v).count p = (m.erase k).count p + if p k v then 1 else 0 := by
  rw [count, count, (perm_insert m k v).countP_eq, List.countP_cons]

theorem count_insert_of_none (h : m.find? k = none) :
    (m.insert k v).count p = m.count p + if p k v then 1 else 0 := by
  rw [count_insert, erase_eq_of_none h]

theorem count_insert_of_some (h : m.find? k = some w) :
    (m.insert k v).count p + (if p k w then 1 else 0) = m.count p + if p k v then 1 else 0 := by
  have := count_erase_add (p := p) h
  rw [count_insert]
  omega

theorem count_le_of_imp {q : κ → β → Bool}
    (h : ∀ k v, m.find? k = some v → p k v = true → q k v = true) : m.count p ≤ m.count q :=
  List.countP_mono_left fun e he => h e.1 e.2 ((m.mem_toList_iff e.1 e.2).1 he)

/-- A count depends on the entries that it counts only. -/
theorem count_congr {m' : SortedMap κ β} {q : κ → β → Bool}
    (h : ∀ k v, m.find? k = some v ∧ p k v = true ↔ m'.find? k = some v ∧ q k v = true) :
    m.count p = m'.count q := by
  rw [count, count, List.countP_eq_length_filter, List.countP_eq_length_filter]
  refine List.Perm.length_eq ?_
  rw [List.perm_ext_iff_of_nodup (m.nodup_toList.filter _) (m'.nodup_toList.filter _)]
  rintro ⟨k, v⟩
  simpa only [List.mem_filter, mem_toList_iff] using h k v

theorem count_pos_iff : 0 < m.count p ↔ ∃ k v, m.find? k = some v ∧ p k v = true := by
  rw [count, List.countP_pos_iff]
  constructor
  · rintro ⟨⟨k, v⟩, hm, hp⟩
    exact ⟨k, v, (m.mem_toList_iff k v).1 hm, hp⟩
  · rintro ⟨k, v, hm, hp⟩
    exact ⟨(k, v), (m.mem_toList_iff k v).2 hm, hp⟩

theorem count_eq_zero_iff : m.count p = 0 ↔ ∀ k v, m.find? k = some v → p k v = false := by
  rw [count, List.countP_eq_zero]
  constructor
  · intro h k v hm
    exact Bool.not_eq_true _ ▸ h (k, v) ((m.mem_toList_iff k v).2 hm)
  · intro h e he
    simp [h e.1 e.2 ((m.mem_toList_iff e.1 e.2).1 he)]

/-- The number of entries with a property is the number of their keys. -/
theorem ncard_setOf (m : SortedMap κ β) (p : κ → β → Bool) :
    {k | ∃ v, m.find? k = some v ∧ p k v = true}.ncard = m.count p := by
  let ks := (m.toList.filter fun e => p e.1 e.2).map Prod.fst
  have hnodup : ks.Nodup := by
    refine ((m.keys_pairwise.imp ?_).sublist ((List.filter_sublist).map _) : ks.Nodup)
    rintro a b hlt rfl
    exact Key.lt_irrefl a hlt
  have hset : {k | ∃ v, m.find? k = some v ∧ p k v = true} = (ks.toFinset : Set κ) := by
    ext k
    simp [ks, mem_toList_iff]
  rw [hset, Set.ncard_coe_finset, List.toFinset_card_of_nodup hnodup, List.length_map, count,
    List.countP_eq_length_filter]

/-! ### Sizes -/

theorem size_erase (h : m.find? k = some v) : (m.erase k).size + 1 = m.size := by
  rw [size, size, (perm_of_find? h).length_eq, List.length_cons]

theorem size_insert_of_some (h : m.find? k = some w) : (m.insert k v).size = m.size := by
  rw [← size_erase h, size, size, (perm_insert m k v).length_eq, List.length_cons]

theorem eq_empty_iff : m = ∅ ↔ ∀ k, m.find? k = none := by
  constructor
  · rintro rfl k
    exact find?_empty k
  · intro h
    exact ext_find? fun k => (h k).trans (find?_empty k).symm

theorem isEmpty_iff : m.isEmpty = true ↔ ∀ k, m.find? k = none := by
  rw [← eq_empty_iff, isEmpty, List.isEmpty_iff]
  constructor
  · exact fun h => ext_toList h
  · rintro rfl
    rfl

theorem size_eq_zero (h : ∀ k, m.find? k = none) : m.size = 0 := by
  rw [eq_empty_iff.2 h]
  rfl

/-- The entries of a list with different keys are found after they were made one after another. -/
theorem find?_foldl_insert : ∀ {l : List (κ × β)}, (l.map Prod.fst).Nodup → ∀ {m : SortedMap κ β}
    {k : κ} {v : β}, (l.foldl (fun m e => m.insert e.1 e.2) m).find? k = some v ↔
      (k, v) ∈ l ∨ k ∉ l.map Prod.fst ∧ m.find? k = some v
  | [], _, m, k, v => by simp
  | e :: l, hnodup, m, k, v => by
      obtain ⟨hnew, hnodup⟩ := List.nodup_cons.1 hnodup
      rw [List.foldl_cons, find?_foldl_insert hnodup, find?_insert]
      by_cases hk : k = e.1
      · subst hk
        have hl : (e.1, v) ∉ l := fun h => hnew (List.mem_map.2 ⟨_, h, rfl⟩)
        simp [hnew, hl, Prod.ext_iff, eq_comm]
      · simp [hk, Prod.ext_iff]

/-! ### Other values under the same keys -/

section

variable {γ : Type} (f : β → γ)

theorem ascending_map {l : List (κ × β)} (h : Entries.Ascending l) :
    Entries.Ascending (l.map fun e => (e.1, f e.2)) :=
  List.pairwise_map.2 h

/-- The map with its values changed. -/
def mapValues (m : SortedMap κ β) : SortedMap κ γ :=
  ⟨m.toList.map fun e => (e.1, f e.2), ascending_map f m.ascending⟩

theorem find?_mapValues (m : SortedMap κ β) (k : κ) :
    (m.mapValues f).find? k = (m.find? k).map f := by
  show Entries.find? k (m.toList.map _) = (Entries.find? k m.toList).map f
  induction m.toList with
  | nil => rfl
  | cons e l ih =>
      simp only [List.map_cons, Entries.find?]
      split
      · rfl
      · exact ih

theorem mapValues_id (m : SortedMap κ β) : m.mapValues id = m :=
  ext_find? fun k => by rw [find?_mapValues, Option.map_id, id]

theorem mapValues_insert (m : SortedMap κ β) (k : κ) (v : β) :
    (m.insert k v).mapValues f = (m.mapValues f).insert k (f v) := by
  refine ext_find? fun k' => ?_
  simp only [find?_mapValues, find?_insert]
  split <;> rfl

theorem mapValues_erase (m : SortedMap κ β) (k : κ) :
    (m.erase k).mapValues f = (m.mapValues f).erase k := by
  refine ext_find? fun k' => ?_
  simp only [find?_mapValues, find?_erase]
  split <;> rfl

theorem contains_mapValues (m : SortedMap κ β) (k : κ) :
    (m.mapValues f).contains k = m.contains k := by
  rw [contains, contains, find?_mapValues, Option.isSome_map]

@[simp] theorem size_mapValues (m : SortedMap κ β) : (m.mapValues f).size = m.size :=
  List.length_map _

@[simp] theorem isEmpty_mapValues (m : SortedMap κ β) : (m.mapValues f).isEmpty = m.isEmpty :=
  List.isEmpty_map

theorem values_mapValues (m : SortedMap κ β) : (m.mapValues f).values = m.values.map f := by
  simp [values, mapValues]

end

end SortedMap

end TraceReplay
