/-
**Dependencies, and cycles of them.**

A node can be done once its parents are.  In a finite graph the nodes that can never be done are those
on a cycle of dependencies, and those that come after one: if every node of a set has a parent in it,
then going from parent to parent one has to meet a node again.

Main definitions:

* `Setup.Parent` — a node is listed among the dependencies of another;
* `Setup.Stuck` — a node lies on a cycle of dependencies, or comes after one;
* `Setup.Acyclic` — there are no cycles.

Main results:

* `Setup.not_stuck_of_topological` — nodes that were done after their parents are not stuck;
* `Setup.stuck_of_parents` — nodes are stuck if each of them has one of them as a parent.
-/

import Mathlib.Data.Fintype.EquivFin
import Mathlib.Data.Fintype.Card
import Mathlib.Logic.Relation
import TraceReplay.Proofs.Engine.Coherence

set_option relaxedAutoImplicit false
set_option autoImplicit false

namespace TraceReplay

open Relation

namespace Setup

variable (s : Setup)

/-- A node of the trace lists another one among its dependencies. -/
def Parent (p c : NodeId) : Prop := ∃ n ∈ s.trace, n.id = c ∧ (p ∈ n.dataDeps ∨ p ∈ n.ctrlDeps)

/-- A node lies on a cycle of dependencies, or comes after one. -/
def Stuck (id : NodeId) : Prop := ∃ c, TransGen s.Parent c c ∧ ReflTransGen s.Parent c id

/-- There are no cycles of dependencies. -/
def Acyclic : Prop := ∀ id, ¬TransGen s.Parent id id

variable {s}

theorem parent_iff {p c : NodeId} :
    s.Parent p c ↔ ∃ n, s.graph.lookup c = some n ∧ p ∈ n.parents := by
  simp only [Parent, s.built.lookup_iff, Node.parents, List.mem_append, and_assoc]

/-- The parents of a node are nodes of the trace. -/
theorem lookup_of_parent {p c : NodeId} (h : s.Parent p c) : ∃ n, s.graph.lookup p = some n := by
  obtain ⟨n, hn, hp⟩ := parent_iff.1 h
  exact Option.isSome_iff_exists.1 (s.built.parents_known n ((s.built.lookup_iff c n).1 hn).1 p hp)

/-- Stuck nodes are nodes of the trace. -/
theorem lookup_of_stuck {id : NodeId} (h : s.Stuck id) : ∃ n, s.graph.lookup id = some n := by
  obtain ⟨c, hcycle, hreach⟩ := h
  obtain ⟨p, -, hparent⟩ := TransGen.tail'_iff.1 (hcycle.trans_left hreach)
  obtain ⟨n, hn, -⟩ := parent_iff.1 hparent
  exact ⟨n, hn⟩

theorem acyclic_iff : s.Acyclic ↔ ∀ id, ¬s.Stuck id := by
  constructor
  · rintro h id ⟨c, hc, -⟩
    exact h c hc
  · intro h id hid
    exact h id ⟨id, hid, .refl⟩

/-- If all nodes have greater identifiers than their parents then there are no cycles. -/
theorem acyclic_of_ascending (h : ∀ n ∈ s.trace, ∀ p ∈ n.parents, p < n.id) : s.Acyclic := by
  have hparent {p c : NodeId} (hparent : s.Parent p c) : p < c := by
    obtain ⟨n, hn, rfl, hp⟩ := hparent
    exact h n hn p (List.mem_append.2 hp)
  have hancestor {a d : NodeId} (hancestor : TransGen s.Parent a d) : a < d := by
    induction hancestor with
    | single hp => exact hparent hp
    | tail _ hp ih => exact Nat.lt_trans ih (hparent hp)
  exact fun id hcycle => Nat.lt_irrefl id (hancestor hcycle)

/-! ### Nodes that are done -/

/-- Going from parent to parent ends, from a node that was done after its parents. -/
theorem acc_of_topological {done : List NodeId} (h : s.graph.Topological done) :
    ∀ id ∈ done, Acc s.Parent id := by
  induction h with
  | nil => exact fun id hid => absurd hid List.not_mem_nil
  | @cons id done new unblocked rest ih =>
      intro id' hid'
      rcases List.mem_cons.1 hid' with rfl | hid'
      · obtain ⟨n, hn, hparents⟩ := unblocked
        refine .intro _ fun p hp => ih p ?_
        obtain ⟨n', hn', hmem⟩ := parent_iff.1 hp
        cases hn.symm.trans hn'
        exact hparents p hmem
      · exact ih id' hid'

/-- A node from which going from parent to parent ends is on no cycle. -/
theorem not_transGen_of_acc {id : NodeId} (h : Acc (TransGen s.Parent) id) :
    ¬TransGen s.Parent id id := by
  induction h with
  | intro id _ ih => exact fun hcycle => ih id hcycle hcycle

/-- Nor does it come after one. -/
theorem not_stuck_of_acc {id : NodeId} (h : Acc s.Parent id) : ¬s.Stuck id := by
  rintro ⟨c, hcycle, hreach⟩
  refine not_transGen_of_acc (Acc.transGen ?_) hcycle
  induction hreach with
  | refl => exact h
  | tail _ hparent ih => exact ih (h.inv hparent)

/-- **Nodes that were done after their parents are not stuck.** -/
theorem not_stuck_of_topological {done : List NodeId} (h : s.graph.Topological done) {id : NodeId}
    (hid : id ∈ done) : ¬s.Stuck id :=
  not_stuck_of_acc (acc_of_topological h id hid)

/-- A node whose parents are not stuck is not stuck. -/
theorem not_stuck_of_unblocked {done : List NodeId} (h : s.graph.Topological done) {id : NodeId}
    (hid : s.graph.Unblocked done id) : ¬s.Stuck id := by
  by_cases hmem : id ∈ done
  · exact not_stuck_of_topological h hmem
  · exact not_stuck_of_topological (.cons hmem hid h) List.mem_cons_self

/-! ### Nodes that are never done -/

/-- **Nodes are stuck if each of them has one of them as a parent.** -/
theorem stuck_of_parents {S : NodeId → Prop} (known : ∀ id, S id → ∃ n, s.graph.lookup id = some n)
    (parents : ∀ id, S id → ∃ p, S p ∧ s.Parent p id) {id : NodeId} (hid : S id) : s.Stuck id := by
  by_contra hstuck
  -- the ancestors of the node among the nodes of the set have no cycle, so one of them comes first
  let A := { a // S a ∧ ReflTransGen s.Parent a id }
  have hmem (a : A) : a.1 ∈ s.trace.map Node.id := by
    obtain ⟨n, hn⟩ := known a.1 a.2.1
    exact List.mem_map.2 ⟨n, (s.built.lookup_iff a.1 n).1 hn⟩
  have hfinite : Finite A :=
    Finite.of_injective (fun a => (⟨a.1, hmem a⟩ : { a // a ∈ s.trace.map Node.id })) fun a b hab =>
      Subtype.ext (Subtype.mk.inj hab)
  let before (a b : A) : Prop := TransGen s.Parent a.1 b.1
  have htrans : IsTrans A before := ⟨fun a b c hab hbc => TransGen.trans hab hbc⟩
  have hirrefl : Std.Irrefl before := ⟨fun a ha => hstuck ⟨a.1, ha, a.2.2⟩⟩
  have hwf : WellFounded before := Finite.wellFounded_of_trans_of_irrefl before
  -- but each of them has a parent among them
  refine hwf.induction (C := fun _ => False) ⟨id, hid, .refl⟩ fun a ih => ?_
  obtain ⟨p, hp, hparent⟩ := parents a.1 a.2.1
  exact ih ⟨p, hp, a.2.2.head hparent⟩ (.single hparent)

end Setup

end TraceReplay
