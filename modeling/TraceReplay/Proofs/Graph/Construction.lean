/-
**The graph of an accepted trace.**

`Graph.ofNodes` refuses a trace in which an id is repeated or a parent is missing.  This module says
what the graph of any other trace looks like: it knows exactly the nodes of the trace, the children of
a node are the nodes that list it among their parents, nodes without parents are queued, and every
other node waits for each of its parents once, however often it is listed.

Main definitions:

* `Node.waitsFor`, `Graph.awaited` — how many of a node's parents are still to be done, and the entry
  that this gives in the table of counts;
* `Graph.Built` — what the graph of a trace looks like.

Main results:

* `Graph.built_of_ofNodes` — an accepted trace has such a graph.
-/

import TraceReplay.Trace.Graph
import TraceReplay.Proofs.SortedMap

set_option relaxedAutoImplicit false
set_option autoImplicit false

namespace TraceReplay

/-! ### Counts of parents -/

@[simp] theorem Node.mem_distinctParents {n : Node} {p : NodeId} :
    p ∈ n.distinctParents ↔ p ∈ n.parents := mem_ascending

theorem Node.nodup_distinctParents (n : Node) : n.distinctParents.Nodup :=
  (ascending_pairwise n.parents).imp fun h => Nat.ne_of_lt h

/-- The number of distinct parents of a node that are not among the nodes done. -/
def Node.waitsFor (n : Node) (done : List NodeId) : Nat :=
  n.distinctParents.countP fun p => p ∉ done

theorem Node.waitsFor_eq_zero_iff {n : Node} {done : List NodeId} :
    n.waitsFor done = 0 ↔ ∀ p ∈ n.parents, p ∈ done := by
  simp [waitsFor]

theorem Node.waitsFor_nil (n : Node) : n.waitsFor [] = n.distinctParents.length := by
  simp [waitsFor]

/-- Among the members of a list without repetitions, another node done is one less that is not. -/
theorem countP_notMem_cons {id : NodeId} {done : List NodeId} (h : id ∉ done) {l : List NodeId}
    (hl : l.Nodup) :
    (l.countP fun p => p ∉ id :: done) + (if id ∈ l then 1 else 0) = l.countP fun p => p ∉ done := by
  induction l with
  | nil => simp
  | cons p l ih =>
      obtain ⟨hp, hl⟩ := List.nodup_cons.1 hl
      have := ih hl
      rw [List.countP_cons, List.countP_cons]
      by_cases hpid : p = id
      · subst hpid
        rw [if_neg hp] at this
        simp only [List.mem_cons, true_or, not_true_eq_false, decide_false, h, ↓reduceIte,
          not_false_eq_true, decide_true, Bool.false_eq_true]
        simp only [List.mem_cons] at this
        omega
      · by_cases hpd : p ∈ done <;> simp [hpid, hpd, Ne.symm hpid] at this ⊢ <;> omega

/-- Another node done is one parent less to wait for, if it is a parent. -/
theorem Node.waitsFor_cons {n : Node} {done : List NodeId} {id : NodeId} (h : id ∉ done) :
    n.waitsFor (id :: done) + (if id ∈ n.parents then 1 else 0) = n.waitsFor done := by
  have := countP_notMem_cons h n.nodup_distinctParents
  simpa only [waitsFor, mem_distinctParents] using this

namespace Graph

/-- The count that belongs to a node when some nodes are done; there is none once all its parents
are. -/
def awaited (g : Graph) (done : List NodeId) (id : NodeId) : Option Nat :=
  (g.lookup id).bind fun n => if n.waitsFor done = 0 then none else some (n.waitsFor done)

theorem awaited_eq_some_iff {g : Graph} {done : List NodeId} {id : NodeId} {k : Nat} :
    g.awaited done id = some k ↔ ∃ n, g.lookup id = some n ∧ n.waitsFor done = k ∧ 0 < k := by
  rw [awaited]
  cases g.lookup id with
  | none => simp
  | some n =>
      by_cases h : n.waitsFor done = 0
      · simp [h]
        omega
      · simp [h]
        omega

theorem awaited_eq_none_iff {g : Graph} {done : List NodeId} {id : NodeId} {n : Node}
    (hn : g.lookup id = some n) : g.awaited done id = none ↔ ∀ p ∈ n.parents, p ∈ done := by
  rw [← Node.waitsFor_eq_zero_iff, awaited, hn]
  by_cases h : n.waitsFor done = 0 <;> simp [h]

/-! ### The nodes of a trace -/

theorem addNode_eq_ok_iff {m m' : SortedMap NodeId Node} {n : Node} :
    addNode m n = .ok m' ↔ m.find? n.id = none ∧ m' = m.insert n.id n := by
  rw [addNode, SortedMap.contains]
  cases h : m.find? n.id with
  | none => simp [eq_comm]
  | some n' => simp

/-- Nodes can be added if their ids are new and differ, and then they are what is added. -/
theorem foldlM_addNode {ns : List Node} : ∀ {m m' : SortedMap NodeId Node},
    ns.foldlM addNode m = .ok m' →
      (ns.map Node.id).Nodup ∧ (∀ n ∈ ns, m.find? n.id = none) ∧
        ∀ id n, m'.find? id = some n ↔ (n ∈ ns ∧ n.id = id) ∨ m.find? id = some n := by
  induction ns with
  | nil =>
      intro m m' h
      cases h
      simp
  | cons a ns ih =>
      intro m m' h
      rw [List.foldlM_cons] at h
      cases ha : addNode m a with
      | error e => rw [ha] at h; cases h
      | ok m₁ =>
          rw [ha] at h
          obtain ⟨hnew, rfl⟩ := addNode_eq_ok_iff.1 ha
          obtain ⟨hnodup, hfresh, hfind⟩ := ih h
          -- the nodes that follow were refused if they had the id of the first
          have hne : ∀ n ∈ ns, n.id ≠ a.id := by
            intro n hn hid
            have := hfresh n hn
            rw [hid, SortedMap.find?_insert_self] at this
            cases this
          refine ⟨?_, ?_, ?_⟩
          · rw [List.map_cons, List.nodup_cons]
            refine ⟨fun hm => ?_, hnodup⟩
            obtain ⟨n, hn, hid⟩ := List.mem_map.1 hm
            exact hne n hn hid
          · intro n hn
            rcases List.mem_cons.1 hn with rfl | hn
            · exact hnew
            · have := hfresh n hn
              rwa [SortedMap.find?_insert_of_ne _ _ (hne n hn)] at this
          · intro id n
            rw [hfind, SortedMap.find?_insert]
            by_cases hid : id = a.id
            · subst hid
              simp only [↓reduceIte, List.mem_cons, hnew, reduceCtorEq, or_false, Option.some.injEq]
              constructor
              · rintro (⟨hn, hid⟩ | rfl)
                · exact absurd hid (hne n hn)
                · exact ⟨.inl rfl, rfl⟩
              · rintro ⟨rfl | hn, hid⟩
                · exact .inr rfl
                · exact absurd hid (hne n hn)
            · simp only [hid, ↓reduceIte, List.mem_cons]
              refine or_congr (and_congr_left fun hn => ?_) Iff.rfl
              constructor
              · exact .inr
              · rintro (rfl | h)
                · exact absurd hn.symm hid
                · exact h

/-! ### Links -/

theorem childrenOf_adopt (children : SortedMap NodeId (List NodeId)) (c p q : NodeId) :
    ((adopt c children p).find? q).getD [] =
      (children.find? q).getD [] ++ if q = p then [c] else [] := by
  rw [adopt, SortedMap.find?_insert]
  by_cases h : q = p
  · subst h
    simp
  · simp [h]

/-- A node is entered once for each of its parents. -/
theorem childrenOf_foldl_adopt (c q : NodeId) : ∀ {ps : List NodeId}, ps.Nodup →
    ∀ children : SortedMap NodeId (List NodeId),
      ((ps.foldl (adopt c) children).find? q).getD [] =
        (children.find? q).getD [] ++ if q ∈ ps then [c] else [] := by
  intro ps
  induction ps with
  | nil => intro _ children; simp
  | cons p ps ih =>
      intro hps children
      obtain ⟨hp, hps⟩ := List.nodup_cons.1 hps
      rw [List.foldl_cons, ih hps, childrenOf_adopt]
      by_cases h : q = p
      · subst h
        simp [hp]
      · simp [h]

/-- What entering a node's dependencies does. -/
theorem link_eq_ok {g g' : Graph} {n : Node} (h : g.link n = .ok g') :
    (∀ p ∈ n.parents, (g.lookup p).isSome) ∧
      g'.nodes = g.nodes ∧ g'.freed = g.freed ∧ g'.retired = g.retired ∧
      g'.ready = g.ready ++ (if n.distinctParents = [] then [n.id] else []) ∧
      (∀ q, g'.childrenOf q = g.childrenOf q ++ if q ∈ n.parents then [n.id] else []) ∧
      ∀ id, g'.unresolved.find? id =
        if id = n.id ∧ n.distinctParents ≠ [] then some n.distinctParents.length
        else g.unresolved.find? id := by
  rw [link] at h
  cases hf : n.distinctParents.find? fun p => !g.nodes.contains p with
  | some p => rw [hf] at h; cases h
  | none =>
      rw [hf] at h
      -- a parent that is not known would have been found
      have hknown : ∀ p ∈ n.parents, (g.lookup p).isSome := by
        intro p hp
        have := List.find?_eq_none.1 hf p (Node.mem_distinctParents.2 hp)
        rwa [Bool.not_eq_true', Bool.not_eq_false] at this
      by_cases hroot : n.distinctParents = []
      · simp only [hroot, ↓reduceIte, Except.ok.injEq] at h
        subst h
        have hno : ∀ q, q ∉ n.parents := fun q hq => by
          have := Node.mem_distinctParents.2 hq
          simp [hroot] at this
        refine ⟨hknown, rfl, rfl, rfl, ?_, fun q => ?_, fun id => ?_⟩
        · simp [hroot]
        · simp [childrenOf, hno]
        · simp [hroot]
      · simp only [hroot, ↓reduceIte, Except.ok.injEq] at h
        subst h
        refine ⟨hknown, rfl, rfl, rfl, ?_, fun q => ?_, fun id => ?_⟩
        · simp [hroot]
        · have := childrenOf_foldl_adopt n.id q n.nodup_distinctParents g.children
          simpa [childrenOf] using this
        · simp [SortedMap.find?_insert, hroot]

/-- What entering the dependencies of several nodes does. -/
theorem foldlM_link {ns : List Node} : ∀ {g g' : Graph}, ns.foldlM link g = .ok g' →
    (ns.map Node.id).Nodup →
      (∀ n ∈ ns, ∀ p ∈ n.parents, (g.lookup p).isSome) ∧
        g'.nodes = g.nodes ∧ g'.freed = g.freed ∧ g'.retired = g.retired ∧
        g'.ready = g.ready ++ (ns.filter fun n => n.distinctParents = []).map Node.id ∧
        (∀ q, g'.childrenOf q =
          g.childrenOf q ++ (ns.filter fun n => q ∈ n.parents).map Node.id) ∧
        (∀ n ∈ ns, n.distinctParents ≠ [] →
          g'.unresolved.find? n.id = some n.distinctParents.length) ∧
        ∀ id, (∀ n ∈ ns, n.id = id → n.distinctParents = []) →
          g'.unresolved.find? id = g.unresolved.find? id := by
  induction ns with
  | nil =>
      intro g g' h _
      cases h
      simp
  | cons a ns ih =>
      intro g g' h hnodup
      obtain ⟨ha, hnodup⟩ := List.nodup_cons.1 (List.map_cons ▸ hnodup)
      rw [List.foldlM_cons] at h
      cases hl : g.link a with
      | error e => rw [hl] at h; cases h
      | ok g₁ =>
          rw [hl] at h
          obtain ⟨hknown, hnodes, hfreed, hretired, hready, hchildren, hunres⟩ := link_eq_ok hl
          obtain ⟨hknown', hnodes', hfreed', hretired', hready', hchildren', hunres', hother'⟩ :=
            ih h hnodup
          refine ⟨?_, hnodes'.trans hnodes, hfreed'.trans hfreed, hretired'.trans hretired,
            ?_, ?_, ?_, ?_⟩
          · intro n hn p hp
            rcases List.mem_cons.1 hn with rfl | hn
            · exact hknown p hp
            · have := hknown' n hn p hp
              rwa [lookup, hnodes] at this
          · rw [hready', hready]
            by_cases hroot : a.distinctParents = [] <;> simp [hroot]
          · intro q
            rw [hchildren', hchildren]
            by_cases hq : q ∈ a.parents <;> simp [hq]
          · intro n hn hroot
            rcases List.mem_cons.1 hn with rfl | hn
            · rw [hother' n.id, hunres, if_pos ⟨rfl, hroot⟩]
              intro n' hn' hid
              exact absurd (List.mem_map.2 ⟨n', hn', hid⟩) ha
            · exact hunres' n hn hroot
          · intro id hid
            rw [hother' id fun n hn => hid n (List.mem_cons_of_mem _ hn), hunres, if_neg]
            rintro ⟨rfl, hroot⟩
            exact hroot (hid a List.mem_cons_self rfl)

/-! ### The graph of a trace -/

/-- What the graph of a trace looks like before anything is done with it. -/
structure Built (ns : List Node) (g : Graph) : Prop where
  /-- No id is repeated. -/
  distinct : (ns.map Node.id).Nodup
  /-- The nodes are those of the trace. -/
  lookup_iff : ∀ id n, g.lookup id = some n ↔ n ∈ ns ∧ n.id = id
  /-- All parents are nodes of the trace. -/
  parents_known : ∀ n ∈ ns, ∀ p ∈ n.parents, (g.lookup p).isSome
  /-- Children are the nodes that list a node among their parents. -/
  mem_childrenOf : ∀ p c, c ∈ g.childrenOf p ↔ ∃ n, g.lookup c = some n ∧ p ∈ n.parents
  /-- Children are in ascending order. -/
  childrenOf_ascending : ∀ p, (g.childrenOf p).Pairwise (· < ·)
  /-- Nodes without parents are queued. -/
  mem_ready : ∀ id, id ∈ g.ready ↔ ∃ n, g.lookup id = some n ∧ n.parents = []
  /-- The queue is in ascending order. -/
  ready_ascending : g.ready.Pairwise (· < ·)
  /-- Every node waits for all its parents. -/
  unresolved : ∀ id, g.unresolved.find? id = g.awaited [] id
  freed : g.freed = []
  retired : g.retired = ∅

theorem Built.id_eq {ns : List Node} {g : Graph} (h : Built ns g) {id : NodeId} {n : Node}
    (hn : g.lookup id = some n) : n.id = id := ((h.lookup_iff id n).1 hn).2

/-- Nodes of the trace are told apart by their ids. -/
theorem Built.eq_of_id_eq {ns : List Node} {g : Graph} (h : Built ns g) {n n' : Node} (hn : n ∈ ns)
    (hn' : n' ∈ ns) (hid : n'.id = n.id) : n' = n :=
  List.inj_on_of_nodup_map h.distinct hn' hn hid

theorem Built.nodup_childrenOf {ns : List Node} {g : Graph} (h : Built ns g) (p : NodeId) :
    (g.childrenOf p).Nodup := (h.childrenOf_ascending p).imp fun h => Nat.ne_of_lt h

/-- The ids of some nodes of an ascending map are ascending. -/
theorem pairwise_ids {m : SortedMap NodeId Node} (h : ∀ id n, m.find? id = some n → n.id = id)
    (p : Node → Bool) : ((m.values.filter p).map Node.id).Pairwise (· < ·) := by
  have hids : m.values.map Node.id = m.keys := by
    rw [SortedMap.values, SortedMap.keys, List.map_map]
    refine List.map_congr_left fun e he => ?_
    exact h e.1 e.2 ((m.mem_toList_iff e.1 e.2).1 he)
  have hsub : ((m.values.filter p).map Node.id).Sublist m.keys := by
    rw [← hids]
    exact List.filter_sublist.map _
  exact m.keys_pairwise.sublist hsub

section

variable {ns : List Node} {nodes : SortedMap NodeId Node} (h : ns.foldlM addNode ∅ = .ok nodes)

include h

/-- Once the nodes of a trace are entered, each is found under its id. -/
theorem find?_of_foldlM_addNode (id : NodeId) (n : Node) :
    nodes.find? id = some n ↔ n ∈ ns ∧ n.id = id := by
  obtain ⟨-, -, hfind⟩ := foldlM_addNode h
  simpa using hfind id n

/-- No node is found under any other id. -/
theorem find?_eq_none_of_foldlM_addNode (id : NodeId) :
    nodes.find? id = none ↔ id ∉ ns.map Node.id := by
  simp only [Option.eq_none_iff_forall_ne_some, ne_eq, find?_of_foldlM_addNode h, List.mem_map, not_exists]

theorem mem_values_of_foldlM_addNode (n : Node) : n ∈ nodes.values ↔ n ∈ ns := by
  rw [SortedMap.mem_values_iff]
  simp only [find?_of_foldlM_addNode h, exists_and_left, exists_eq', and_true]

/-- Their dependencies are entered in ascending order of ids. -/
theorem pairwise_values_of_foldlM_addNode : (nodes.values.map Node.id).Pairwise (· < ·) := by
  have := pairwise_ids (fun id n hn => ((find?_of_foldlM_addNode h id n).1 hn).2) fun _ => true
  rwa [List.filter_eq_self.2 fun _ _ => rfl] at this

end

/-- **An accepted trace has a graph that fits it.** -/
theorem built_of_ofNodes {ns : List Node} {g : Graph} (h : ofNodes ns = .ok g) : Built ns g := by
  rw [ofNodes] at h
  cases hn : ns.foldlM addNode ∅ with
  | error e => rw [hn] at h; cases h
  | ok nodes =>
      rw [hn] at h
      replace h : nodes.values.foldlM link { nodes } = .ok g := h
      -- first the nodes are entered, then their dependencies, in ascending order of ids
      have hfind := find?_of_foldlM_addNode hn
      have hid : ∀ id n, nodes.find? id = some n → n.id = id := fun id n h => ((hfind id n).1 h).2
      have hvalues : ∀ n, n ∈ nodes.values ↔ nodes.find? n.id = some n := fun n => by
        rw [mem_values_of_foldlM_addNode hn, hfind, and_iff_left rfl]
      have hnodup : (nodes.values.map Node.id).Nodup :=
        (pairwise_values_of_foldlM_addNode hn).imp fun h => Nat.ne_of_lt h
      obtain ⟨hknown, hnodes, hfreed, hretired, hready, hchildren, hunres, hother⟩ :=
        foldlM_link h hnodup
      have hlookup : ∀ id, g.lookup id = nodes.find? id := fun id => by rw [lookup, hnodes]
      have hselect (p : Node → Bool) (id : NodeId) :
          id ∈ (nodes.values.filter p).map Node.id ↔ ∃ n, g.lookup id = some n ∧ p n = true := by
        simp only [List.mem_map, List.mem_filter, hvalues, hlookup]
        constructor
        · rintro ⟨n, ⟨hn, hp⟩, rfl⟩
          exact ⟨n, hn, hp⟩
        · rintro ⟨n, hn, hp⟩
          exact ⟨n, ⟨(hid id n hn).symm ▸ hn, hp⟩, hid id n hn⟩
      refine ⟨(foldlM_addNode hn).1, fun id n => by rw [hlookup, hfind], ?_, ?_, ?_, ?_, ?_, ?_, hfreed,
        hretired⟩
      · intro n hn p hp
        rw [hlookup]
        exact hknown n ((hvalues n).2 ((hfind n.id n).2 ⟨hn, rfl⟩)) p hp
      · intro p c
        rw [hchildren p]
        simpa [childrenOf] using hselect (fun n => p ∈ n.parents) c
      · intro p
        rw [hchildren p]
        exact pairwise_ids hid _
      · intro id
        rw [hready]
        have hroot : ∀ n : Node, n.distinctParents = [] ↔ n.parents = [] := by
          intro n
          simp only [List.eq_nil_iff_forall_not_mem, Node.mem_distinctParents]
        simpa [hroot] using hselect (fun n => n.distinctParents = []) id
      · rw [hready]
        exact pairwise_ids hid _
      · intro id
        rw [awaited, hlookup]
        cases hn : nodes.find? id with
        | none =>
            rw [hother id]
            · rfl
            · intro n hn' hid'
              rw [hvalues, hid', hn] at hn'
              cases hn'
        | some n =>
            have hnid := hid id n hn
            simp only [Option.bind_some, Node.waitsFor_nil, List.length_eq_zero_iff]
            by_cases hroot : n.distinctParents = []
            · rw [if_pos hroot, hother id]
              · rfl
              · intro n' hn' hid'
                rw [hvalues, hid', hn] at hn'
                cases hn'
                exact hroot
            · rw [if_neg hroot, ← hnid]
              exact hunres n ((hvalues n).2 (hnid.symm ▸ hn)) hroot

end Graph

end TraceReplay
