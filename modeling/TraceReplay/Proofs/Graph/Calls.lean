/-
**Readiness under any calls.**

The engine takes nodes, gives them back, tells children and drops nodes in an order of its own.  The graph
does not rely on that order, nor on the ids that it is called with: as long as the children of a node are
told at most once, each count is the number of distinct parents whose children have not been told, nothing
is subtracted from zero, and a node joins the queue once, when its last parent is done.

Main definitions:

* `Graph.Call`, `Graph.perform` — the calls that change a graph, and what they do;
* `Graph.told` — the nodes whose children calls tell;
* `Graph.joins`, `Graph.joined` — the nodes that a graph queues by itself during a call, and during several;
* `Graph.Tallied` — a graph has the counts and the tensor sizes that it should have.

Main results:

* `Graph.Tallied.perform` — a call keeps counts and sizes, and queues the nodes that it unblocks;
* `Graph.Tallied.performAll` — so do several;
* `Graph.counts_exact` — **the counts are exact under any calls**.
-/

import TraceReplay.Proofs.Graph.Acceptance
import TraceReplay.Proofs.Graph.Readiness

set_option relaxedAutoImplicit false
set_option autoImplicit false

namespace TraceReplay

namespace Graph

/-! ### Calls -/

/-- A call that changes a graph. -/
inductive Call where
  /-- The node at the front of the queue is taken, if there is one. -/
  | take
  /-- A node is given back. -/
  | giveBack (id : NodeId)
  /-- The children of a node are told. -/
  | tell (id : NodeId)
  /-- A node is dropped. -/
  | drop (id : NodeId)
  deriving DecidableEq

/-- What a call does. -/
def perform (g : Graph) : Call → Except Fault Graph
  | .take => .ok ((g.takeReady?.map Prod.snd).getD g)
  | .giveBack id => .ok (g.pushBack id)
  | .tell id => g.freeDependents id
  | .drop id => .ok (g.remove id)

/-- The node whose children a call tells. -/
def Call.told? : Call → Option NodeId
  | tell id => some id
  | _ => none

/-- The nodes whose children calls tell. -/
def told (calls : List Call) : List NodeId := calls.filterMap Call.told?

/-- The nodes that a graph queues by itself during a call: those by which the queue has become longer, other
than one that was given back. -/
def joins (g : Graph) (c : Call) : List NodeId :=
  match c, g.perform c with
  | .giveBack _, _ => []
  | _, .ok g' => g'.ready.drop g.ready.length
  | _, .error _ => []

/-- The nodes that a graph queues by itself during calls, one after another. -/
def joined (g : Graph) : List Call → List NodeId
  | [] => []
  | c :: calls =>
      g.joins c ++ match g.perform c with
        | .ok g' => joined g' calls
        | .error _ => []

theorem Unblocked.mono {g : Graph} {done done' : List NodeId} {id : NodeId} (h : g.Unblocked done id)
    (hle : ∀ p ∈ done, p ∈ done') : g.Unblocked done' id := by
  obtain ⟨n, hn, hparents⟩ := h
  exact ⟨n, hn, fun p hp => hle p (hparents p hp)⟩

/-! ### One call -/

/-- The graph `g` has the counts that belong to its nodes done, and the tensor sizes of the fresh graph
`g₀`. -/
structure Tallied (g₀ g : Graph) : Prop extends Counts g₀ g where
  sizes : ∀ id, g.tensorSizeOf id = g₀.tensorSizeOf id

variable {ns : List Node} {g₀ g : Graph}

theorem Built.tallied (h : Built ns g₀) : Tallied g₀ g₀ := ⟨h.counts, fun _ => rfl⟩

/-- Counts and sizes do not depend on the queue. -/
theorem Tallied.withReady (h : Tallied g₀ g) (ready : List NodeId) : Tallied g₀ { g with ready } :=
  ⟨⟨h.children, h.unresolved⟩, h.sizes⟩

/-- Telling children queues those that become unblocked by it. -/
theorem Tallied.tell (hb : Built ns g₀) (h : Tallied g₀ g) {id : NodeId} (new : id ∉ g.freed) :
    ∃ g', g.freeDependents id = .ok g' ∧ Tallied g₀ g' ∧ g'.freed = id :: g.freed ∧
      ∃ queued, g'.ready = g.ready ++ queued ∧ queued.Pairwise (· < ·) ∧
        ∀ c, c ∈ queued ↔ g₀.Unblocked (id :: g.freed) c ∧ ¬g₀.Unblocked g.freed c := by
  obtain ⟨unresolved, hg', hcounts⟩ := h.toCounts.freeDependents hb new
  refine ⟨_, hg', ⟨⟨h.children, hcounts⟩, h.sizes⟩, rfl, _, rfl,
    (hb.childrenOf_ascending id).sublist List.filter_sublist, fun c => ?_⟩
  rw [List.mem_filter, decide_eq_true_eq, unblocked_cons hb new]
  constructor
  · rintro ⟨hchild, hlast⟩
    refine ⟨.inr ⟨hchild, hlast⟩, fun hunblocked => ?_⟩
    rw [hunblocked.awaited] at hlast
    cases hlast
  · rintro ⟨hunblocked | hlast, hblocked⟩
    · exact absurd hunblocked hblocked
    · exact hlast

/-- **A call keeps counts and sizes, and the graph queues the nodes that it unblocks**, unless it tells the
children of a node a second time. -/
theorem Tallied.perform (hb : Built ns g₀) (h : Tallied g₀ g) (c : Call)
    (new : ∀ id, c.told? = some id → id ∉ g.freed) :
    ∃ g', g.perform c = .ok g' ∧ Tallied g₀ g' ∧ g'.freed = c.told?.toList ++ g.freed ∧
      (g.joins c).Nodup ∧
      ∀ id, id ∈ g.joins c ↔ g₀.Unblocked g'.freed id ∧ ¬g₀.Unblocked g.freed id := by
  cases c with
  | take =>
      refine ⟨_, rfl, ?_⟩
      unfold joins Graph.perform takeReady?
      cases hready : g.ready with
      | nil => exact ⟨h, rfl, by simp [hready]⟩
      | cons id rest =>
          have hnone : rest.drop (rest.length + 1) = [] := List.drop_eq_nil_of_le (Nat.le_succ _)
          exact ⟨h.withReady rest, rfl, by simp [hnone]⟩
  | giveBack id => exact ⟨_, rfl, h.withReady _, rfl, by simp [joins, pushBack]⟩
  | drop id =>
      refine ⟨_, rfl, ⟨h.toCounts.remove id, fun id' => ?_⟩, ?_⟩
      · rw [tensorSizeOf_remove, h.sizes]
      · simp [joins, Graph.perform, Call.told?]
  | tell id =>
      obtain ⟨g', hg', htallied, hfreed, queued, hready, hascending, hqueued⟩ := h.tell hb (new id rfl)
      have hjoins : g.joins (.tell id) = queued := by
        simp only [joins, Graph.perform, hg', hready, List.drop_left]
      rw [hjoins]
      refine ⟨g', hg', htallied, hfreed, hascending.imp fun h => Nat.ne_of_lt h, ?_⟩
      rw [hfreed]
      exact hqueued

/-! ### Several calls -/

/-- **Calls keep counts and sizes, and the graph queues each node that they unblock once.** -/
theorem Tallied.performAll (hb : Built ns g₀) : ∀ {calls : List Call} {g : Graph}, Tallied g₀ g →
    (told calls).Nodup → (∀ id ∈ told calls, id ∉ g.freed) →
      ∃ g', calls.foldlM Graph.perform g = .ok g' ∧ Tallied g₀ g' ∧
        (∀ id, id ∈ g'.freed ↔ id ∈ told calls ∨ id ∈ g.freed) ∧ (g.joined calls).Nodup ∧
        ∀ id, id ∈ g.joined calls ↔ g₀.Unblocked g'.freed id ∧ ¬g₀.Unblocked g.freed id
  | [], g, h, _, _ => ⟨g, rfl, h, by simp [told], List.nodup_nil, by simp [joined]⟩
  | c :: calls, g, h, once, new => by
      have htold : told (c :: calls) = c.told?.toList ++ told calls := by
        rw [told, List.filterMap_cons]
        cases c.told? <;> rfl
      rw [htold] at once new
      obtain ⟨-, honce, hdistinct⟩ := List.nodup_append.1 once
      obtain ⟨g₁, hg₁, htallied, hfreed, hnodup, hjoins⟩ := h.perform hb c fun id hid =>
        new id (List.mem_append_left _ (by simp [hid]))
      obtain ⟨g', hg', htallied', hfreed', hnodup', hjoined⟩ := Tallied.performAll hb htallied honce
        fun id hid hmem => by
          rw [hfreed, List.mem_append] at hmem
          rcases hmem with hmem | hmem
          · exact hdistinct id hmem id hid rfl
          · exact new id (List.mem_append_right _ hid) hmem
      have hmono₁ {id : NodeId} (h : g₀.Unblocked g.freed id) : g₀.Unblocked g₁.freed id :=
        h.mono fun p hp => hfreed ▸ List.mem_append_right _ hp
      have hmono' {id : NodeId} (h : g₀.Unblocked g₁.freed id) : g₀.Unblocked g'.freed id :=
        h.mono fun p hp => (hfreed' p).2 (.inr hp)
      have hcons : g.joined (c :: calls) = g.joins c ++ g₁.joined calls := by
        rw [joined, hg₁]
      refine ⟨g', by rw [List.foldlM_cons, hg₁]; exact hg', htallied', fun id => ?_, ?_, fun id => ?_⟩
      · rw [hfreed', hfreed, htold, List.mem_append, List.mem_append, or_assoc, or_left_comm]
      · -- what the later calls unblock was blocked after the first one
        rw [hcons, List.nodup_append]
        refine ⟨hnodup, hnodup', fun id hid id' hid' heq => ?_⟩
        subst heq
        exact ((hjoined id).1 hid').2 ((hjoins id).1 hid).1
      · rw [hcons, List.mem_append, hjoins, hjoined]
        constructor
        · rintro (⟨hunblocked, hblocked⟩ | ⟨hunblocked, hblocked⟩)
          · exact ⟨hmono' hunblocked, hblocked⟩
          · exact ⟨hunblocked, fun h => hblocked (hmono₁ h)⟩
        · rintro ⟨hunblocked, hblocked⟩
          by_cases h : g₀.Unblocked g₁.freed id
          · exact .inl ⟨h, hblocked⟩
          · exact .inr ⟨hunblocked, h⟩

/-! ### All calls -/

/-- The entry of a node in the table of counts is the number of its distinct parents that are not done, if
there are any. -/
theorem Built.awaited_eq (h : Built ns g₀) {n : Node} (hn : n ∈ ns) (done : List NodeId) :
    g₀.awaited done n.id =
      if {p | p ∈ n.parents ∧ p ∉ done}.ncard = 0 then none
      else some {p | p ∈ n.parents ∧ p ∉ done}.ncard := by
  rw [awaited, (h.lookup_iff n.id n).2 ⟨hn, rfl⟩, ← Node.waitsFor_eq_ncard]
  rfl

theorem Built.lookup_eq_none (h : Built ns g₀) {id : NodeId} (hid : ∀ n ∈ ns, n.id ≠ id) :
    g₀.lookup id = none :=
  Option.eq_none_iff_forall_ne_some.2 fun n hn =>
    hid n ((h.lookup_iff id n).1 hn).1 ((h.lookup_iff id n).1 hn).2

/-- A node is unblocked once all its parents are done. -/
theorem Built.unblocked_iff (h : Built ns g₀) {done : List NodeId} {id : NodeId} :
    g₀.Unblocked done id ↔ ∃ n ∈ ns, n.id = id ∧ ∀ p ∈ n.parents, p ∈ done := by
  simp only [Unblocked, h.lookup_iff, and_assoc]

/-- Another node done unblocks the nodes of which it was the last parent. -/
theorem Built.unblocked_cons_iff (h : Built ns g₀) {done : List NodeId} {p : NodeId} (new : p ∉ done)
    {id : NodeId} : g₀.Unblocked (p :: done) id ∧ ¬g₀.Unblocked done id ↔
      ∃ n ∈ ns, n.id = id ∧ p ∈ n.parents ∧ ∀ q ∈ n.parents, q ≠ p → q ∈ done := by
  constructor
  · rintro ⟨⟨n, hn, hparents⟩, hblocked⟩
    obtain ⟨hmem, hid⟩ := (h.lookup_iff id n).1 hn
    have hrest : ∀ q ∈ n.parents, q ≠ p → q ∈ done := fun q hq hne =>
      (List.mem_cons.1 (hparents q hq)).resolve_left hne
    refine ⟨n, hmem, hid, by_contra fun hp => hblocked ⟨n, hn, fun q hq => hrest q hq ?_⟩, hrest⟩
    exact fun heq => hp (heq ▸ hq)
  · rintro ⟨n, hmem, hid, hp, hrest⟩
    have hn := (h.lookup_iff id n).2 ⟨hmem, hid⟩
    refine ⟨⟨n, hn, fun q hq => List.mem_cons.2 ?_⟩, ?_⟩
    · rcases eq_or_ne q p with heq | hne
      · exact .inl heq
      · exact .inr (hrest q hq hne)
    · rintro ⟨n', hn', hparents⟩
      cases hn.symm.trans hn'
      exact new (hparents p hp)

/-- **The counts are exact under any calls**, in any order and with any ids, as long as the children of no
node are told twice.  No call fails; a node has the number of its distinct parents whose children have not
been told as its count, and no count once there are none.  Telling the children of another node then queues
those of which it is the last such parent, in ascending order.  Over all calls the graph queues by itself
exactly the nodes of which all parents have been told, each once.  The tensor sizes stay those of the
trace. -/
theorem counts_exact (h : ofNodes ns = .ok g₀) (calls : List Call) (once : (told calls).Nodup) :
    ∃ g, calls.foldlM Graph.perform g₀ = .ok g ∧
      (∀ n ∈ ns, g.unresolved.find? n.id =
        if {p | p ∈ n.parents ∧ p ∉ told calls}.ncard = 0 then none
        else some {p | p ∈ n.parents ∧ p ∉ told calls}.ncard) ∧
      (∀ id, (∀ n ∈ ns, n.id ≠ id) → g.unresolved.find? id = none) ∧
      (∀ p, p ∉ told calls → ∃ g' queued, g.freeDependents p = .ok g' ∧
        g'.ready = g.ready ++ queued ∧ queued.Pairwise (· < ·) ∧
        ∀ c, c ∈ queued ↔ ∃ n ∈ ns, n.id = c ∧ p ∈ n.parents ∧
          ∀ q ∈ n.parents, q ≠ p → q ∈ told calls) ∧
      (g₀.ready ++ g₀.joined calls).Nodup ∧
      (∀ id, id ∈ g₀.ready ++ g₀.joined calls ↔
        ∃ n ∈ ns, n.id = id ∧ ∀ p ∈ n.parents, p ∈ told calls) ∧
      (∀ n ∈ ns, g.tensorSizeOf n.id = some n.tensorSize) ∧
      ∀ id, (∀ n ∈ ns, n.id ≠ id) → g.tensorSizeOf id = none := by
  have built := built_of_ofNodes h
  obtain ⟨g, hg, htallied, hfreed, hnodup, hjoined⟩ := Tallied.performAll built built.tallied once
    fun id _ => by simp [built.freed]
  simp only [built.freed, List.not_mem_nil, or_false] at hfreed hjoined
  have hready (id : NodeId) : id ∈ g₀.ready ↔ g₀.Unblocked [] id := by
    simp only [built.mem_ready, Unblocked, List.not_mem_nil, imp_false, List.eq_nil_iff_forall_not_mem]
  have hunblocked (id : NodeId) : g₀.Unblocked g.freed id ↔
      ∃ n ∈ ns, n.id = id ∧ ∀ p ∈ n.parents, p ∈ told calls := by
    simp only [built.unblocked_iff, hfreed]
  refine ⟨g, hg, fun n hn => ?_, fun id hid => ?_, fun p hp => ?_, ?_, fun id => ?_, fun n hn => ?_,
    fun id hid => ?_⟩
  · rw [htallied.unresolved, built.awaited_eq hn]
    simp only [hfreed]
  · rw [htallied.unresolved, awaited, built.lookup_eq_none hid]
    rfl
  · have new : p ∉ g.freed := fun hmem => hp ((hfreed p).1 hmem)
    obtain ⟨g', hg', -, -, queued, hready', hascending, hqueued⟩ := htallied.tell built new
    refine ⟨g', queued, hg', hready', hascending, fun c => ?_⟩
    simp only [hqueued, built.unblocked_cons_iff new, hfreed]
  · refine List.nodup_append.2 ⟨built.ready_ascending.imp fun h => Nat.ne_of_lt h, hnodup,
      fun id hid id' hid' heq => ?_⟩
    subst heq
    exact ((hjoined id).1 hid').2 ((hready id).1 hid)
  · rw [List.mem_append, hready, hjoined, ← hunblocked]
    constructor
    · rintro (hroot | ⟨h, -⟩)
      · exact hroot.mono fun p hp => by cases hp
      · exact h
    · intro h
      by_cases hroot : g₀.Unblocked [] id
      · exact .inl hroot
      · exact .inr ⟨h, hroot⟩
  · rw [htallied.sizes, tensorSizeOf, (built.lookup_iff n.id n).2 ⟨hn, rfl⟩]
    rfl
  · rw [htallied.sizes, tensorSizeOf, built.lookup_eq_none hid, built.retired]
    rfl

/-- In the diamond the children of a node that was never there are told, those of one that was dropped,
and a node is given back that nobody took: the last task still waits for one parent, and no longer. -/
theorem counts_exact_diamond : ∃ g₀ g, ofNodes diamond = .ok g₀ ∧
    [.tell 9, .take, .drop 3, .tell 1, .giveBack 7, .tell 3].foldlM Graph.perform g₀ = .ok g ∧
    g.unresolved.find? 4 = some 1 ∧ (∃ g', g.freeDependents 2 = .ok g' ∧ 4 ∈ g'.ready) ∧
    g.tensorSizeOf 3 = some 0 := by
  obtain ⟨g₀, hg₀⟩ : ∃ g₀, ofNodes diamond = .ok g₀ := ⟨_, rfl⟩
  obtain ⟨g, hg, hcounts, -, htell, -, -, hsizes, -⟩ :=
    counts_exact hg₀ [.tell 9, .take, .drop 3, .tell 1, .giveBack 7, .tell 3] (by decide)
  obtain ⟨g', queued, hg', hready, -, hqueued⟩ := htell 2 (by decide)
  refine ⟨g₀, g, hg₀, hg, ?_, ⟨g', hg', ?_⟩, ?_⟩
  · simp only [← Node.waitsFor_eq_ncard] at hcounts
    exact (hcounts _ (List.mem_cons_self : _ ∈ diamond)).trans (by decide)
  · rw [hready]
    exact List.mem_append_right _ ((hqueued 4).2 (by decide))
  · exact hsizes _ (List.mem_cons_of_mem _ (List.mem_cons_of_mem _ List.mem_cons_self) : _ ∈ diamond)

end Graph

end TraceReplay
