/-
**Telling children.**

When a node is done its children are told, and a child whose last parent this was joins the queue.
This module shows that the table of counts is exact: whatever nodes have been done so far, the count of
a node is the number of its distinct parents that have not been, and there is no entry once all of them
have.  In particular no count is ever taken below zero, and telling the children of a node that was not
done before always succeeds.

Main definitions:

* `Graph.Counts` — the counts of a graph are those that its nodes done give;
* `Graph.Unblocked` — all parents of a node are done;
* `Graph.Topological` — nodes were done after their parents.

Main results:

* `Graph.Counts.freeDependents` — telling the children of a node: the counts stay exact, and exactly
  the children whose last parent this was join the queue, in ascending order;
* `Graph.work_freeDependents` — nodes queued or waiting become neither more nor fewer by it;
* `Graph.tensorSizeOf_remove` — a removed node keeps its tensor size.
-/

import TraceReplay.Proofs.Graph.Construction

set_option relaxedAutoImplicit false
set_option autoImplicit false

namespace TraceReplay

namespace Graph

/-! ### Telling one child -/

/-- A count after one more parent is done; the last parent leaves no count. -/
def lessOne : Option Nat → Option Nat
  | some (k + 2) => some (k + 1)
  | _ => none

theorem resolve_none {g : Graph} {c : NodeId} (h : g.unresolved.find? c = none) :
    g.resolve c = .ok g := by
  simp only [resolve, h]

theorem resolve_one {g : Graph} {c : NodeId} (h : g.unresolved.find? c = some 1) :
    g.resolve c = .ok { g with unresolved := g.unresolved.erase c, ready := g.ready ++ [c] } := by
  simp only [resolve, h]
  rfl

theorem resolve_more {g : Graph} {c : NodeId} {k : Nat}
    (h : g.unresolved.find? c = some (k + 2)) :
    g.resolve c = .ok { g with unresolved := g.unresolved.insert c (k + 1) } := by
  simp only [resolve, h]
  rfl

theorem resolve_zero {g : Graph} {c : NodeId} (h : g.unresolved.find? c = some 0) :
    g.resolve c = .error .differenceNegative := by
  simp only [resolve, h]
  rfl

/-- Telling a child whose count is not zero changes its count, and its place in the queue if the count
was one. -/
theorem resolve_spec {g : Graph} {c : NodeId} (h : g.unresolved.find? c ≠ some 0) :
    ∃ unresolved, g.resolve c = .ok { g with
        unresolved
        ready := g.ready ++ if g.unresolved.find? c = some 1 then [c] else [] } ∧
      ∀ c', unresolved.find? c' =
        if c' = c then lessOne (g.unresolved.find? c) else g.unresolved.find? c' := by
  match hc : g.unresolved.find? c with
  | none =>
      refine ⟨g.unresolved, by simp [resolve_none hc], fun c' => ?_⟩
      by_cases hc' : c' = c
      · simp [hc', hc, lessOne]
      · simp [hc']
  | some 0 => exact absurd hc h
  | some 1 =>
      refine ⟨g.unresolved.erase c, by simp [resolve_one hc], fun c' => ?_⟩
      simp [SortedMap.find?_erase, lessOne]
  | some (k + 2) =>
      refine ⟨g.unresolved.insert c (k + 1), by simp [resolve_more hc], fun c' => ?_⟩
      simp [SortedMap.find?_insert, lessOne]

/-! ### Telling all children -/

/-- Telling several children, none of which has the count zero. -/
theorem foldlM_resolve {cs : List NodeId} : ∀ {g : Graph}, cs.Nodup →
    (∀ c ∈ cs, g.unresolved.find? c ≠ some 0) →
      ∃ unresolved, cs.foldlM resolve g = .ok { g with
          unresolved
          ready := g.ready ++ cs.filter fun c => g.unresolved.find? c = some 1 } ∧
        ∀ c, unresolved.find? c =
          if c ∈ cs then lessOne (g.unresolved.find? c) else g.unresolved.find? c := by
  induction cs with
  | nil =>
      intro g _ _
      exact ⟨g.unresolved, by simp [pure, Except.pure], by simp⟩
  | cons a cs ih =>
      intro g hnodup hpos
      obtain ⟨ha, hnodup⟩ := List.nodup_cons.1 hnodup
      obtain ⟨u, hu, hfind⟩ := resolve_spec (hpos a List.mem_cons_self)
      -- telling the first child leaves the counts of the others alone
      have hkeep : ∀ c ∈ cs, u.find? c = g.unresolved.find? c := by
        intro c hc
        rw [hfind, if_neg]
        rintro rfl
        exact ha hc
      have hpos' : ∀ c ∈ cs, u.find? c ≠ some 0 := fun c hc => by
        rw [hkeep c hc]
        exact hpos c (List.mem_cons_of_mem _ hc)
      obtain ⟨u', hu', hfind'⟩ := ih (g := { g with
        unresolved := u
        ready := g.ready ++ if g.unresolved.find? a = some 1 then [a] else [] }) hnodup hpos'
      refine ⟨u', ?_, fun c => ?_⟩
      · rw [List.foldlM_cons, hu]
        refine Eq.trans hu' ?_
        have hfilter : (cs.filter fun c => u.find? c = some 1) =
            cs.filter fun c => g.unresolved.find? c = some 1 :=
          List.filter_congr fun c hc => by rw [hkeep c hc]
        rw [hfilter]
        by_cases h1 : g.unresolved.find? a = some 1 <;> simp [h1]
      · rw [hfind' c, hfind c]
        by_cases hca : c = a
        · subst hca
          simp [ha]
        · simp [hca]

/-- The counts of `g` are those of the fresh graph `g₀` after the nodes done in `g`. -/
structure Counts (g₀ g : Graph) : Prop where
  children : g.children = g₀.children
  unresolved : ∀ id, g.unresolved.find? id = g₀.awaited g.freed id

theorem Built.counts {ns : List Node} {g : Graph} (h : Built ns g) : Counts g g :=
  ⟨rfl, by rw [h.freed]; exact h.unresolved⟩

theorem Counts.ne_zero {g₀ g : Graph} (h : Counts g₀ g) (c : NodeId) :
    g.unresolved.find? c ≠ some 0 := by
  intro hc
  rw [h.unresolved, awaited_eq_some_iff] at hc
  obtain ⟨n, -, -, hpos⟩ := hc
  omega

/-- One more node done is one parent less for its children, and nothing for other nodes. -/
theorem awaited_cons {ns : List Node} {g : Graph} (h : Built ns g) {done : List NodeId}
    {id : NodeId} (hid : id ∉ done) (c : NodeId) :
    g.awaited (id :: done) c =
      if c ∈ g.childrenOf id then lessOne (g.awaited done c) else g.awaited done c := by
  cases hc : g.lookup c with
  | none =>
      have : c ∉ g.childrenOf id := by
        rw [h.mem_childrenOf]
        rintro ⟨n, hn, -⟩
        rw [hc] at hn
        cases hn
      simp [awaited, hc, this]
  | some n =>
      have hmem : c ∈ g.childrenOf id ↔ id ∈ n.parents := by
        rw [h.mem_childrenOf]
        simp [hc]
      have hcount := Node.waitsFor_cons (n := n) hid
      simp only [awaited, hc, Option.bind_some, hmem]
      by_cases hp : id ∈ n.parents
      · simp only [hp, ↓reduceIte] at hcount ⊢
        -- the parents left over are none, or one less than before
        obtain hk | ⟨k, hk⟩ : n.waitsFor done = 1 ∨ ∃ k, n.waitsFor done = k + 2 := by
          rcases hk : n.waitsFor done with _ | _ | k
          · omega
          · exact .inl rfl
          · exact .inr ⟨k, rfl⟩
        · simp [hk, lessOne, show n.waitsFor (id :: done) = 0 by omega]
        · simp [hk, lessOne, show n.waitsFor (id :: done) = k + 1 by omega]
      · simp only [hp, ↓reduceIte, Nat.add_zero] at hcount ⊢
        rw [hcount]

/-- **Telling the children of a node keeps the counts exact.**  It succeeds for every node that was
not done before, and the children whose last parent this was join the queue. -/
theorem Counts.freeDependents {ns : List Node} {g₀ g : Graph} (hb : Built ns g₀)
    (h : Counts g₀ g) {id : NodeId} (hid : id ∉ g.freed) :
    ∃ unresolved, g.freeDependents id = .ok { g with
        freed := id :: g.freed
        unresolved
        ready := g.ready ++ (g₀.childrenOf id).filter fun c => g₀.awaited g.freed c = some 1 } ∧
      ∀ c, unresolved.find? c = g₀.awaited (id :: g.freed) c := by
  have hchildren : g.childrenOf id = g₀.childrenOf id := by rw [childrenOf, childrenOf, h.children]
  obtain ⟨u, hu, hfind⟩ := foldlM_resolve (g := { g with freed := id :: g.freed })
    (hb.nodup_childrenOf id) fun c _ => h.ne_zero c
  refine ⟨u, ?_, fun c => ?_⟩
  · rw [Graph.freeDependents, if_neg hid, hchildren, hu]
    simp only [h.unresolved]
  · rw [hfind c, awaited_cons hb hid]
    simp only [h.unresolved]

/-! ### Nodes that wait for none -/

/-- The node with an id waits for none: all its parents are done. -/
def Unblocked (g : Graph) (done : List NodeId) (id : NodeId) : Prop :=
  ∃ n, g.lookup id = some n ∧ ∀ p ∈ n.parents, p ∈ done

theorem Unblocked.awaited {g : Graph} {done : List NodeId} {id : NodeId}
    (h : g.Unblocked done id) : g.awaited done id = none := by
  obtain ⟨n, hn, hparents⟩ := h
  exact (awaited_eq_none_iff hn).2 hparents

theorem Unblocked.cons {g : Graph} {done : List NodeId} {id : NodeId} (h : g.Unblocked done id)
    (id' : NodeId) : g.Unblocked (id' :: done) id := by
  obtain ⟨n, hn, hparents⟩ := h
  exact ⟨n, hn, fun p hp => List.mem_cons_of_mem _ (hparents p hp)⟩

/-- The nodes that wait for none once another node is done: those from before, and the children for
which it was the last parent. -/
theorem unblocked_cons {ns : List Node} {g : Graph} (hb : Built ns g) {done : List NodeId}
    {id : NodeId} (hid : id ∉ done) (c : NodeId) :
    g.Unblocked (id :: done) c ↔
      g.Unblocked done c ∨ c ∈ g.childrenOf id ∧ g.awaited done c = some 1 := by
  have hcons := awaited_cons hb hid c
  constructor
  · intro h
    rw [h.awaited] at hcons
    obtain ⟨n, hn, -⟩ := h
    cases hc : g.awaited done c with
    | none => exact .inl ⟨n, hn, (awaited_eq_none_iff hn).1 hc⟩
    | some k =>
        rw [hc] at hcons
        by_cases hmem : c ∈ g.childrenOf id
        · rw [if_pos hmem] at hcons
          obtain ⟨-, -, -, hpos⟩ := awaited_eq_some_iff.1 hc
          match k with
          | 0 => omega
          | 1 => exact .inr ⟨hmem, rfl⟩
          | k + 2 => cases hcons
        · rw [if_neg hmem] at hcons
          cases hcons
  · rintro (h | ⟨hmem, hc⟩)
    · exact h.cons id
    · rw [if_pos hmem, hc] at hcons
      obtain ⟨n, hn, -⟩ := awaited_eq_some_iff.1 hc
      exact ⟨n, hn, (awaited_eq_none_iff hn).1 hcons⟩

/-- Some nodes, last one first, each of which was done once and after all its parents. -/
inductive Topological (g : Graph) : List NodeId → Prop
  | nil : Topological g []
  | cons {id : NodeId} {done : List NodeId} (new : id ∉ done) (unblocked : g.Unblocked done id)
      (rest : Topological g done) : Topological g (id :: done)

/-! ### Work -/

theorem work_resolve {g g' : Graph} {c : NodeId} (h : g.resolve c = .ok g') : g'.work = g.work := by
  match hc : g.unresolved.find? c with
  | none => rw [resolve_none hc] at h; cases h; rfl
  | some 0 => rw [resolve_zero hc] at h; cases h
  | some 1 =>
      rw [resolve_one hc] at h
      cases h
      have := SortedMap.size_erase hc
      simp only [work, List.length_append, List.length_cons, List.length_nil]
      omega
  | some (k + 2) =>
      rw [resolve_more hc] at h
      cases h
      simp only [work, SortedMap.size_insert_of_some hc]

theorem work_foldlM_resolve {cs : List NodeId} : ∀ {g g' : Graph},
    cs.foldlM resolve g = .ok g' → g'.work = g.work := by
  induction cs with
  | nil => intro g g' h; cases h; rfl
  | cons c cs ih =>
      intro g g' h
      rw [List.foldlM_cons] at h
      cases hc : g.resolve c with
      | error f => rw [hc] at h; cases h
      | ok g₁ =>
          rw [hc] at h
          exact (ih h).trans (work_resolve hc)

/-- Telling children moves nodes from waiting to queued. -/
theorem work_freeDependents {g g' : Graph} {id : NodeId} (h : g.freeDependents id = .ok g') :
    g'.work = g.work := by
  rw [Graph.freeDependents] at h
  split at h
  · cases h
  · exact (work_foldlM_resolve h).trans rfl

/-! ### Removal -/

theorem work_remove (g : Graph) (id : NodeId) : (g.remove id).work = g.work := by
  rw [remove]
  split <;> rfl

@[simp] theorem ready_remove (g : Graph) (id : NodeId) : (g.remove id).ready = g.ready := by
  rw [remove]
  split <;> rfl

@[simp] theorem freed_remove (g : Graph) (id : NodeId) : (g.remove id).freed = g.freed := by
  rw [remove]
  split <;> rfl

theorem lookup_remove (g : Graph) (id id' : NodeId) :
    (g.remove id).lookup id' = if id' = id then none else g.lookup id' := by
  rw [remove]
  split
  next h =>
    by_cases hid : id' = id
    · simp [hid, h]
    · simp [hid]
  next n h => simp only [lookup, SortedMap.find?_erase]

/-- A removed node keeps its tensor size. -/
theorem tensorSizeOf_remove (g : Graph) (id id' : NodeId) :
    (g.remove id).tensorSizeOf id' = g.tensorSizeOf id' := by
  rw [remove]
  split
  next h => rfl
  next n h =>
    by_cases hid : id' = id
    · subst hid
      have hn : g.nodes.find? id' = some n := h
      simp [tensorSizeOf, lookup, hn]
    · simp [tensorSizeOf, lookup, SortedMap.find?_erase_of_ne _ hid,
        SortedMap.find?_insert_of_ne _ _ hid]

theorem Counts.remove {g₀ g : Graph} (h : Counts g₀ g) (id : NodeId) : Counts g₀ (g.remove id) := by
  rw [Graph.remove]
  split
  · exact h
  · exact ⟨h.children, h.unresolved⟩

end Graph

end TraceReplay
