/-
**Which traces are accepted.**

A trace has a graph exactly if no id is repeated and every parent is a node of the trace.  Otherwise the
error names the first node whose id was there before; if there is none, the smallest node with an unknown
parent and the smallest of its unknown parents.  Nodes are entered under their ids, and their dependencies
in the order of the ids, so that only the first of these errors depends on the order of the trace.

Main definitions:

* `Graph.Dangling` — a node of a trace lists a parent that is not in the trace.

Main results:

* `Graph.ofNodes_of_repeated`, `Graph.ofNodes_of_dangling` — what is wrong with other traces;
* `Graph.exists_ofNodes` — a trace without these flaws has a graph;
* `Graph.ofNodes_perm` — if no id is repeated the order of the trace does not matter;
* `Graph.accepted_exactly` — **which traces are accepted, and what their graphs look like**.
-/

import Mathlib.Data.Set.Card
import Mathlib.Order.Bounds.Basic
import TraceReplay.Proofs.Counter
import TraceReplay.Proofs.Graph.Construction

set_option relaxedAutoImplicit false
set_option autoImplicit false

namespace TraceReplay

/-! ### Parents -/

theorem Node.mem_parents {n : Node} {p : NodeId} :
    p ∈ n.parents ↔ p ∈ n.dataDeps ∨ p ∈ n.ctrlDeps := List.mem_append

theorem Node.parents_eq_nil_iff {n : Node} : n.parents = [] ↔ n.dataDeps = [] ∧ n.ctrlDeps = [] :=
  List.append_eq_nil_iff

/-- A node waits for those of its parents that are not done, each of which counts once. -/
theorem Node.waitsFor_eq_ncard (n : Node) (done : List NodeId) :
    n.waitsFor done = {p | p ∈ n.parents ∧ p ∉ done}.ncard := by
  have hset : {p | p ∈ n.parents ∧ p ∉ done} =
      ((n.distinctParents.filter fun p => p ∉ done).toFinset : Set NodeId) := by
    ext p
    simp
  rw [hset, Set.ncard_coe_finset, List.toFinset_card_of_nodup (n.nodup_distinctParents.filter _),
    waitsFor, List.countP_eq_length_filter]

namespace Graph

variable {ns ns' : List Node}

/-! ### Repeated ids -/

/-- **Nodes with different ids are all entered**; otherwise the first one that repeats an id is named. -/
theorem foldlM_addNode_outcome (ns : List Node) :
    (ns.map Node.id).Nodup ∧ (∃ nodes, ns.foldlM addNode ∅ = .ok nodes) ∨
      ∃ before n after, ns = before ++ n :: after ∧ (before.map Node.id).Nodup ∧
        n.id ∈ before.map Node.id ∧
        ns.foldlM addNode ∅ = .error (.traceLoad s!"duplicate node id {n.id}") := by
  rcases Except.foldlM_outcome addNode ns ∅ with ⟨nodes, hnodes⟩ | ⟨before, n, after, nodes, e, hns, hok, hn, he⟩
  · exact .inl ⟨(foldlM_addNode hnodes).1, nodes, hnodes⟩
  · refine .inr ⟨before, n, after, hns, (foldlM_addNode hok).1, ?_⟩
    rw [addNode, SortedMap.contains] at hn
    cases hfind : nodes.find? n.id with
    | none =>
        rw [hfind] at hn
        cases hn
    | some n' =>
        rw [hfind] at hn
        cases hn
        obtain ⟨hmem, hid⟩ := (find?_of_foldlM_addNode hok _ _).1 hfind
        exact ⟨List.mem_map.2 ⟨n', hmem, hid⟩, he⟩

theorem exists_foldlM_addNode (distinct : (ns.map Node.id).Nodup) :
    ∃ nodes, ns.foldlM addNode ∅ = .ok nodes := by
  rcases foldlM_addNode_outcome ns with ⟨-, hok⟩ | ⟨before, n, after, rfl, -, hrepeated, -⟩
  · exact hok
  · rw [List.map_append, List.map_cons] at distinct
    exact absurd rfl ((List.nodup_append.1 distinct).2.2 _ hrepeated _ List.mem_cons_self)

/-- If an id is repeated, the error names the first node whose id was there before. -/
theorem ofNodes_of_repeated (repeated : ¬(ns.map Node.id).Nodup) :
    ∃ before n after, ns = before ++ n :: after ∧ (before.map Node.id).Nodup ∧
      n.id ∈ before.map Node.id ∧
      ofNodes ns = .error (.traceLoad s!"duplicate node id {n.id}") := by
  rcases foldlM_addNode_outcome ns with ⟨hdistinct, -⟩ | ⟨before, n, after, hns, hbefore, hmem, he⟩
  · exact absurd hdistinct repeated
  · refine ⟨before, n, after, hns, hbefore, hmem, ?_⟩
    rw [ofNodes, he]
    rfl

/-! ### Unknown parents -/

/-- A node of the trace with a given id lists a parent that is not in the trace. -/
def Dangling (ns : List Node) (id p : NodeId) : Prop :=
  ∃ n ∈ ns, n.id = id ∧ (p ∈ n.dataDeps ∨ p ∈ n.ctrlDeps) ∧ p ∉ ns.map Node.id

/-- Entering the dependencies of a node stops at the smallest of its unknown parents. -/
theorem link_eq_error {g : Graph} {n : Node} {e : ReplayError} (h : g.link n = .error e) :
    ∃ p, IsLeast {p | p ∈ n.parents ∧ g.lookup p = none} p ∧
      e = .traceLoad s!"node {n.id} depends on unknown node {p}" := by
  rw [link] at h
  cases hfind : n.distinctParents.find? fun p => !g.nodes.contains p with
  | none =>
      rw [hfind] at h
      dsimp only at h
      split at h <;> cases h
  | some p =>
      rw [hfind] at h
      cases h
      have hunknown (q : NodeId) : (!g.nodes.contains q) = true ↔ g.lookup q = none := by
        rw [Bool.not_eq_true', SortedMap.contains, Option.isSome_eq_false_iff, Option.isNone_iff_eq_none,
          lookup]
      obtain ⟨hp, before, after, hparents, hbefore⟩ := List.find?_eq_some_iff_append.1 hfind
      have hmem (q : NodeId) : q ∈ n.parents ↔ q ∈ before ++ p :: after := by
        rw [← hparents, Node.mem_distinctParents]
      refine ⟨p, ⟨⟨(hmem p).2 (List.mem_append_right _ List.mem_cons_self), (hunknown p).1 hp⟩, ?_⟩, rfl⟩
      rintro q ⟨hq, hnone⟩
      -- the parents before `p` are known, and those after it are greater
      rcases List.mem_append.1 ((hmem q).1 hq) with hq | hq
      · have hknown := hbefore q hq
        rw [(hunknown q).2 hnone] at hknown
        cases hknown
      · have hascending : (before ++ p :: after).Pairwise (· < ·) := hparents ▸ ascending_pairwise _
        rcases List.mem_cons.1 hq with rfl | hq
        · exact Nat.le_refl _
        · exact Nat.le_of_lt ((List.pairwise_cons.1 (List.pairwise_append.1 hascending).2.1).1 q hq)

/-- A graph that knows the nodes of a trace does not know the unknown parents. -/
theorem dangling_iff {nodes : SortedMap NodeId Node} (h : ns.foldlM addNode ∅ = .ok nodes)
    {id p : NodeId} : Dangling ns id p ↔
      ∃ n ∈ nodes.values, n.id = id ∧ p ∈ n.parents ∧ nodes.find? p = none := by
  simp only [Dangling, mem_values_of_foldlM_addNode h, find?_eq_none_of_foldlM_addNode h,
    Node.mem_parents]

/-- **Dependencies are entered if all parents are known**; otherwise the smallest node with an unknown
parent is named, and the smallest of its unknown parents. -/
theorem ofNodes_outcome (distinct : (ns.map Node.id).Nodup) :
    (∃ g, ofNodes ns = .ok g) ∨ ∃ id p, IsLeast {id | ∃ p, Dangling ns id p} id ∧
      IsLeast {p | Dangling ns id p} p ∧
      ofNodes ns = .error (.traceLoad s!"node {id} depends on unknown node {p}") := by
  obtain ⟨nodes, hnodes⟩ := exists_foldlM_addNode distinct
  have hofNodes : ofNodes ns = nodes.values.foldlM link { nodes } := by
    rw [ofNodes, hnodes]
    rfl
  have hascending := pairwise_values_of_foldlM_addNode hnodes
  rcases Except.foldlM_outcome link nodes.values { nodes } with
    ⟨g, hg⟩ | ⟨before, n, after, g, e, hsplit, hok, hn, he⟩
  · exact .inl ⟨g, hofNodes.trans hg⟩
  · -- the nodes before `n` are smaller and have known parents only, and those after it are greater
    simp only [hsplit, List.map_append, List.map_cons] at hascending
    obtain ⟨hbefore, hafter, -⟩ := List.pairwise_append.1 hascending
    obtain ⟨hknown, hsame, -⟩ := foldlM_link hok (hbefore.imp fun h => Nat.ne_of_lt h)
    obtain ⟨p, ⟨⟨hp, hunknown⟩, hleast⟩, rfl⟩ := link_eq_error hn
    simp only [lookup, hsame] at hknown hunknown hleast
    have hmem : n ∈ nodes.values := hsplit ▸ List.mem_append_right _ List.mem_cons_self
    have hsmallest {m : Node} {q : NodeId} (hm : m ∈ nodes.values) (hq : q ∈ m.parents)
        (hnone : nodes.find? q = none) : m = n ∨ n.id < m.id := by
      rw [hsplit, List.mem_append, List.mem_cons] at hm
      rcases hm with hm | rfl | hm
      · have hsome := hknown m hm q hq
        rw [hnone] at hsome
        cases hsome
      · exact .inl rfl
      · exact .inr ((List.pairwise_cons.1 hafter).1 m.id (List.mem_map_of_mem hm))
    refine .inr ⟨n.id, p, ⟨⟨p, ?_⟩, ?_⟩, ⟨?_, ?_⟩, hofNodes.trans he⟩
    · exact (dangling_iff hnodes).2 ⟨n, hmem, rfl, hp, hunknown⟩
    · rintro id ⟨q, hq⟩
      obtain ⟨m, hm, rfl, hq, hnone⟩ := (dangling_iff hnodes).1 hq
      rcases hsmallest hm hq hnone with rfl | hlt
      · exact Nat.le_refl _
      · exact Nat.le_of_lt hlt
    · exact (dangling_iff hnodes).2 ⟨n, hmem, rfl, hp, hunknown⟩
    · intro q hq
      obtain ⟨m, hm, hid, hparent, hnone⟩ := (dangling_iff hnodes).1 hq
      rcases hsmallest hm hparent hnone with rfl | hlt
      · exact hleast ⟨hparent, hnone⟩
      · exact absurd hid (Nat.ne_of_gt hlt)

/-- **A trace without these flaws has a graph.** -/
theorem exists_ofNodes (distinct : (ns.map Node.id).Nodup) (known : ∀ id p, ¬Dangling ns id p) :
    ∃ g, ofNodes ns = .ok g := by
  rcases ofNodes_outcome distinct with hok | ⟨id, p, -, ⟨hdangling, -⟩, -⟩
  · exact hok
  · exact absurd hdangling (known id p)

theorem Built.not_dangling {g : Graph} (h : Built ns g) (id p : NodeId) : ¬Dangling ns id p := by
  rintro ⟨n, hn, -, hp, hunknown⟩
  obtain ⟨m, hm⟩ := Option.isSome_iff_exists.1 (h.parents_known n hn p (Node.mem_parents.2 hp))
  obtain ⟨hmem, rfl⟩ := (h.lookup_iff p m).1 hm
  exact hunknown (List.mem_map_of_mem hmem)

/-! ### The order of a trace -/

/-- **If no id is repeated the order of the trace does not matter**, neither for its graph nor for the
error. -/
theorem ofNodes_perm (distinct : (ns.map Node.id).Nodup) (h : ns'.Perm ns) :
    ofNodes ns' = ofNodes ns := by
  obtain ⟨nodes, hnodes⟩ := exists_foldlM_addNode distinct
  obtain ⟨nodes', hnodes'⟩ := exists_foldlM_addNode ((h.map Node.id).nodup_iff.2 distinct)
  have hsame : nodes' = nodes := SortedMap.ext_find? fun id => Option.ext fun n => by
    rw [find?_of_foldlM_addNode hnodes, find?_of_foldlM_addNode hnodes', h.mem_iff]
  rw [ofNodes, ofNodes, hnodes, hnodes', hsame]

/-! ### The graph of a trace -/

/-- **Which traces are accepted, and what their graphs look like.**  A trace is accepted exactly if no id is
repeated and all parents are nodes of the trace.  If an id is repeated the error names the first node whose
id was there before; otherwise it names the smallest node with an unknown parent, and the smallest of
these parents.  In the graph a node has the nodes that list it as children, the nodes without parents are
queued, both in ascending order, and every other node waits for its distinct parents.  All orders of the
trace give the same graph. -/
theorem accepted_exactly (ns : List Node) :
    ((∃ g, ofNodes ns = .ok g) ↔ (ns.map Node.id).Nodup ∧
      ∀ n ∈ ns, ∀ p, p ∈ n.dataDeps ∨ p ∈ n.ctrlDeps → p ∈ ns.map Node.id) ∧
    (¬(ns.map Node.id).Nodup → ∃ before n after, ns = before ++ n :: after ∧
      (before.map Node.id).Nodup ∧ n.id ∈ before.map Node.id ∧
      ofNodes ns = .error (.traceLoad s!"duplicate node id {n.id}")) ∧
    ((ns.map Node.id).Nodup → (∃ id p, Dangling ns id p) → ∃ id p,
      IsLeast {id | ∃ p, Dangling ns id p} id ∧ IsLeast {p | Dangling ns id p} p ∧
      ofNodes ns = .error (.traceLoad s!"node {id} depends on unknown node {p}")) ∧
    ∀ g, ofNodes ns = .ok g →
      (∀ id n, g.lookup id = some n ↔ n ∈ ns ∧ n.id = id) ∧
      (∀ p, (g.childrenOf p).Pairwise (· < ·) ∧
        ∀ c, c ∈ g.childrenOf p ↔ ∃ n ∈ ns, n.id = c ∧ (p ∈ n.dataDeps ∨ p ∈ n.ctrlDeps)) ∧
      (g.ready.Pairwise (· < ·) ∧
        ∀ id, id ∈ g.ready ↔ ∃ n ∈ ns, n.id = id ∧ n.dataDeps = [] ∧ n.ctrlDeps = []) ∧
      (∀ id k, g.unresolved.find? id = some k ↔ ∃ n ∈ ns, n.id = id ∧
        {p | p ∈ n.dataDeps ∨ p ∈ n.ctrlDeps}.ncard = k ∧ 0 < k) ∧
      ∀ ns', ns'.Perm ns → ofNodes ns' = .ok g := by
  have hdangling : (∀ id p, ¬Dangling ns id p) ↔
      ∀ n ∈ ns, ∀ p, p ∈ n.dataDeps ∨ p ∈ n.ctrlDeps → p ∈ ns.map Node.id := by
    simp only [Dangling]
    grind
  refine ⟨⟨?_, ?_⟩, ofNodes_of_repeated, ?_, fun g hg => ?_⟩
  · rintro ⟨g, hg⟩
    have built := built_of_ofNodes hg
    exact ⟨built.distinct, hdangling.1 built.not_dangling⟩
  · rintro ⟨distinct, known⟩
    exact exists_ofNodes distinct (hdangling.2 known)
  · rintro distinct ⟨id, p, hp⟩
    rcases ofNodes_outcome distinct with ⟨g, hg⟩ | hflaw
    · exact absurd hp ((built_of_ofNodes hg).not_dangling id p)
    · exact hflaw
  · have built := built_of_ofNodes hg
    refine ⟨built.lookup_iff, fun p => ⟨built.childrenOf_ascending p, fun c => ?_⟩,
      ⟨built.ready_ascending, fun id => ?_⟩, fun id k => ?_, fun ns' hperm => ?_⟩
    · simp only [built.mem_childrenOf, built.lookup_iff, Node.mem_parents, and_assoc]
    · simp only [built.mem_ready, built.lookup_iff, Node.parents_eq_nil_iff, and_assoc]
    · simp only [built.unresolved, awaited_eq_some_iff, built.lookup_iff, Node.waitsFor_eq_ncard,
        Node.mem_parents, List.not_mem_nil, not_false_eq_true, and_true, and_assoc]
    · rw [ofNodes_perm built.distinct hperm, hg]

/-- Four tasks.  The last one waits for two others, and lists both of them twice. -/
def diamond : List Node :=
  let task (id : NodeId) (dataDeps ctrlDeps : List NodeId) : Node :=
    { id, name := "task", kind := .compute, dataDeps, ctrlDeps, attributes := {} }
  [task 4 [3, 2, 3] [2], task 2 [1] [], task 3 [1] [], task 1 [] []]

/-- The diamond is accepted in either direction, but not twice over, and not without its first task. -/
theorem accepted_exactly_diamond :
    (∃ g, ofNodes diamond = .ok g ∧ 4 ∈ g.childrenOf 3 ∧ 1 ∈ g.ready ∧
      ofNodes diamond.reverse = .ok g) ∧
    (∃ n ∈ diamond ++ diamond,
      ofNodes (diamond ++ diamond) = .error (.traceLoad s!"duplicate node id {n.id}")) ∧
    ∃ id p, IsLeast {id | ∃ p, Dangling (diamond.take 3) id p} id ∧
      IsLeast {p | Dangling (diamond.take 3) id p} p ∧
      ofNodes (diamond.take 3) = .error (.traceLoad s!"node {id} depends on unknown node {p}") := by
  have known : ∀ n ∈ diamond, ∀ p ∈ n.parents, p ∈ diamond.map Node.id := by decide
  simp only [Node.mem_parents] at known
  obtain ⟨accepted, -, -, built⟩ := accepted_exactly diamond
  obtain ⟨g, hg⟩ := accepted.2 ⟨by decide, known⟩
  obtain ⟨-, children, ⟨-, ready⟩, -, reordered⟩ := built g hg
  obtain ⟨-, repeated, -⟩ := accepted_exactly (diamond ++ diamond)
  obtain ⟨before, n, after, hsplit, -, -, htwice⟩ := repeated (by decide)
  obtain ⟨-, -, dangling, -⟩ := accepted_exactly (diamond.take 3)
  obtain ⟨id, p, hid, hp, hunknown⟩ := dangling (by decide) ⟨3, 1, by unfold Dangling; decide⟩
  refine ⟨⟨g, hg, ((children 3).2 4).2 (by decide), (ready 1).2 (by decide),
    reordered _ diamond.reverse_perm⟩, ⟨n, ?_, htwice⟩, id, p, hid, hp, hunknown⟩
  rw [hsplit]
  exact List.mem_append_right _ List.mem_cons_self

end Graph

end TraceReplay
