/-
**Traces that are read are in range.**

Numbers of a trace are kept as natural numbers.  Reading a trace refuses every one that is no counter, so
that the sizes of its nodes are counters.

Main definitions:

* `Node.Counted` — the sizes of a node are counters.

Main results:

* `Node.counted_of_readTrace` — the nodes of a trace that is read are in range.
-/

import TraceReplay.Trace.Format

set_option relaxedAutoImplicit false
set_option autoImplicit false

namespace TraceReplay

/-- The sizes of a node are counters. -/
structure Node.Counted (n : Node) : Prop where
  tensorSize : ∀ size, n.attributes.tensorSize = some size → size < Counter.limit
  commSize : ∀ size, n.attributes.commSize = some size → size < Counter.limit

theorem Node.Counted.tensorSize_lt {n : Node} (h : n.Counted) : n.tensorSize < Counter.limit := by
  rw [Node.tensorSize]
  cases hsize : n.attributes.tensorSize with
  | none => decide
  | some size => exact h.tensorSize size hsize

theorem Json.lt_of_natBelow? {limit size : Nat} {j : Json} (h : Json.natBelow? limit j = some size) :
    size < limit := by
  cases j with
  | number n => exact of_decide_eq_true (Option.filter_eq_some_iff.1 h).2
  | _ => cases h

/-- What is read as a list is read item by item. -/
theorem Json.exists_of_mem_listOf? {α : Type} {read : Json → Option α} {j : Json} {as : List α}
    (h : Json.listOf? read j = some as) {a : α} (ha : a ∈ as) : ∃ item, read item = some a := by
  obtain ⟨items, -, hitems⟩ := Option.bind_eq_some_iff.1 h
  clear h
  induction items generalizing as with
  | nil => cases hitems; cases ha
  | cons item items ih =>
      rw [List.mapM_cons] at hitems
      obtain ⟨b, hb, hitems⟩ := Option.bind_eq_some_iff.1 hitems
      obtain ⟨bs, hbs, hitems⟩ := Option.bind_eq_some_iff.1 hitems
      cases hitems
      rcases List.mem_cons.1 ha with rfl | ha
      · exact ⟨item, hb⟩
      · exact ih ha hbs

theorem Attributes.lt_of_field? {fields : Fields Json} {name : String} {limit : Nat}
    {value : Option Nat} (h : field? fields name (Json.natBelow? limit) = some value) :
    ∀ size, value = some size → size < limit := by
  rintro size rfl
  unfold field? Fields.withDefault? at h
  split at h
  · cases h
  · unfold Json.optional? at h
    split at h
    · cases h
    · obtain ⟨_, hsize, heq⟩ := Option.map_eq_some_iff.1 h
      cases heq
      exact Json.lt_of_natBelow? hsize

/-- The sizes that are read are counters. -/
theorem Attributes.lt_of_ofMembers? {fields : Fields Json} {a : Attributes}
    (h : ofMembers? fields = some a) :
    (∀ size, a.tensorSize = some size → size < Counter.limit) ∧
      ∀ size, a.commSize = some size → size < Counter.limit := by
  -- attributes are read one after the other, as they are declared
  iterate 3 obtain ⟨_, -, h⟩ := Option.bind_eq_some_iff.1 h
  obtain ⟨tensorSize, htensor, h⟩ := Option.bind_eq_some_iff.1 h
  iterate 2 obtain ⟨_, -, h⟩ := Option.bind_eq_some_iff.1 h
  obtain ⟨commSize, hcomm, h⟩ := Option.bind_eq_some_iff.1 h
  iterate 7 obtain ⟨_, -, h⟩ := Option.bind_eq_some_iff.1 h
  cases h
  exact ⟨lt_of_field? htensor, lt_of_field? hcomm⟩

theorem Node.counted_of_ofJson? {j : Json} {n : Node} (h : ofJson? j = some n) : n.Counted := by
  -- the members, two checks of them and the node's own five come before its attributes
  iterate 8 obtain ⟨_, -, h⟩ := Option.bind_eq_some_iff.1 h
  obtain ⟨attributes, hattributes, h⟩ := Option.bind_eq_some_iff.1 h
  cases h
  obtain ⟨htensor, hcomm⟩ := Attributes.lt_of_ofMembers? hattributes
  exact ⟨htensor, hcomm⟩

/-- **The nodes of a trace that is read are in range.** -/
theorem Node.counted_of_readTrace {text : String} {ns : List Node} (h : readTrace text = .ok ns) :
    ∀ n ∈ ns, n.Counted := by
  intro n hn
  unfold readTrace Json.readAs at h
  split at h
  next hread =>
    cases h
    obtain ⟨_, -, hkept⟩ := Option.bind_eq_some_iff.1 hread
    obtain ⟨_, -, hlist⟩ := Option.bind_eq_some_iff.1 hkept
    obtain ⟨item, hitem⟩ := Json.exists_of_mem_listOf? hlist hn
    exact counted_of_ofJson? hitem
  next => cases h

end TraceReplay
