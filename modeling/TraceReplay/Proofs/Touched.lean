/-
**The bytes that a computation touches.**

Only a computation under the roofline model looks at other nodes when it is planned: it adds up its own
tensor and those of its data parents, one for each time that a parent is listed.  This module gives the
sum, and tells the nodes whose plan depends on it from the others.

Main definitions:

* `Plan.touched` — the bytes that a node touches, its data parents counted as listed;
* `Node.ByRoofline` — the nodes that are planned by the roofline model.

Main results:

* `Plan.ioSize_eq` — the sum is calculated, unless it leaves the range of counters;
* `Plan.ofNode_eq_fault_iff` — planning faults for no other reason;
* `Plan.ofNode_of_byRoofline`, `Plan.ofNode_congr` — what the plan of a node depends on;
* `Setup.known_of_mem` — the data parents of a node of the trace have sizes.
-/

import TraceReplay.Proofs.Engine.Coherence

set_option relaxedAutoImplicit false
set_option autoImplicit false

namespace TraceReplay

/-- The nodes that are planned by the roofline model, if their bytes can be added up. -/
structure Node.ByRoofline (c : EngineConfig) (n : Node) : Prop where
  costed : c.replayOnly = false
  model : c.roofline.isSome = true
  computes : n.nodeClass = .cpuCompute
  works : ∃ numOps, n.attributes.numOps = some numOps ∧ numOps ≠ 0
  sized : n.attributes.tensorSize.isSome = true

namespace Plan

/-- The bytes that a node touches: its own tensor and those of its data parents as listed. -/
def touched (sizeOf : NodeId → Option Nat) (n : Node) : Nat :=
  n.tensorSize + (n.dataDeps.map fun p => (sizeOf p).getD 0).sum

variable {c : EngineConfig} {sizeOf : NodeId → Option Nat} {n : Node}

/-- Sizes of known parents are added up, unless the sum leaves the range. -/
theorem foldlM_addParent_eq {ps : List NodeId} : ∀ {total : Nat},
    (∀ p ∈ ps, (sizeOf p).isSome = true) →
      ps.foldlM (addParent sizeOf) total =
        if ps = [] ∨ total + (ps.map fun p => (sizeOf p).getD 0).sum < Counter.limit then
          .ok (total + (ps.map fun p => (sizeOf p).getD 0).sum)
        else .error (.fault .sumTooLarge) := by
  induction ps with
  | nil => exact fun _ => (if_pos (.inl rfl)).symm
  | cons p ps ih =>
      intro total known
      obtain ⟨hp, hps⟩ := List.forall_mem_cons.1 known
      obtain ⟨size, hsize⟩ := Option.isSome_iff_exists.1 hp
      simp only [List.foldlM_cons, addParent, hsize, List.map_cons, Option.getD_some, List.sum_cons,
        ← Nat.add_assoc, reduceCtorEq, false_or]
      by_cases hsum : total + size < Counter.limit
      · rw [Counter.add_of_lt hsum]
        refine (ih hps).trans ?_
        cases ps with
        | nil => simp [hsum]
        | cons q qs => simp
      · -- once the sum is too large it stays so
        rw [Counter.add, if_neg hsum, if_neg (by omega)]
        rfl

/-- **The bytes that a node touches are added up**, unless the sum leaves the range. -/
theorem ioSize_eq (known : ∀ p ∈ n.dataDeps, (sizeOf p).isSome = true) : ioSize sizeOf n =
    if n.dataDeps = [] ∨ touched sizeOf n < Counter.limit then .ok (touched sizeOf n)
    else .error (.fault .sumTooLarge) := foldlM_addParent_eq known

/-! ### What a plan depends on -/

/-- The plan of a node under the roofline model depends on the bytes that it touches. -/
theorem ofNode_of_byRoofline (sizeOf : NodeId → Option Nat) (h : n.ByRoofline c) :
    ∃ numOps, n.attributes.numOps = some numOps ∧
      ofNode c sizeOf n n.nodeClass = ofSize n.id numOps (ioSize sizeOf n) := by
  obtain ⟨numOps, hops, hne⟩ := h.works
  obtain ⟨own, hown⟩ := Option.isSome_iff_exists.1 h.sized
  refine ⟨numOps, hops, ?_⟩
  have hrequire : requireNonzero n "num_ops" n.attributes.numOps = .ok numOps := by
    rw [hops]
    show (if numOps = 0 then _ else _) = _
    rw [if_neg hne]
    rfl
  have hsized : require n "tensor_size" n.attributes.tensorSize = .ok own := by
    rw [hown]
    rfl
  rw [← ofComputation_eq hrequire hsized]
  simp only [ofNode, h.computes, h.costed, h.model, Bool.false_eq_true, ↓reduceIte, reduceCtorEq]

/-- A computation without operations or without a tensor cannot be planned, whatever it touches. -/
theorem ofComputation_congr {sizeOf' : NodeId → Option Nat} {n' : Node} (hid : n'.id = n.id)
    (hattributes : n'.attributes = n.attributes)
    (h : ¬((∃ numOps, n.attributes.numOps = some numOps ∧ numOps ≠ 0) ∧
      n.attributes.tensorSize.isSome = true)) :
    ofComputation sizeOf' n' = ofComputation sizeOf n := by
  simp only [ofComputation, requireNonzero, require, hid, hattributes]
  cases hops : n.attributes.numOps with
  | none => rfl
  | some numOps =>
      by_cases hzero : numOps = 0
      · subst hzero
        rfl
      · cases hown : n.attributes.tensorSize with
        | none => rfl
        | some own => exact absurd ⟨⟨numOps, hops, hzero⟩, by rw [hown]; rfl⟩ h

/-- **The plan of any other node depends on its id, its kind and its attributes only.** -/
theorem ofNode_congr (h : ¬n.ByRoofline c) {sizeOf' : NodeId → Option Nat} {n' : Node}
    (hid : n'.id = n.id) (hkind : n'.kind = n.kind) (hattributes : n'.attributes = n.attributes) :
    ofNode c sizeOf' n' n'.nodeClass = ofNode c sizeOf n n.nodeClass := by
  have hclass : n'.nodeClass = n.nodeClass := by
    simp only [Node.nodeClass, Node.onCpu, hkind, hattributes]
  have hreplay : replay c n' = replay c n := by simp only [replay, require, hid, hattributes]
  have hmemory : ofRemoteMemory n' = ofRemoteMemory n := by
    simp only [ofRemoteMemory, requireNonzero, require, hid, hattributes]
  have hcollective : ofCollective c n' = ofCollective c n := by
    simp only [ofCollective, require, hid, hattributes]
  have hsend : ofSend c n' = ofSend c n := by simp only [ofSend, require, hid, hattributes]
  have hreceive : ofReceive c n' = ofReceive c n := by simp only [ofReceive, require, hid, hattributes]
  rw [hclass]
  unfold ofNode
  rw [hid, hreplay, hmemory, hcollective, hsend, hreceive]
  split
  · rfl
  · split
    · rfl
    next hreplayed =>
      cases hcpu : n.nodeClass with
      | cpuCompute =>
          dsimp only
          split
          next hmodel =>
            refine ofComputation_congr hid hattributes fun ⟨hworks, hsized⟩ => h ?_
            exact ⟨Bool.eq_false_iff.2 hreplayed, hmodel, hcpu, hworks, hsized⟩
          next => rfl
      | _ => rfl

/-- Planning a node without data parents does not fault. -/
theorem ofNode_ne_fault (alone : n.dataDeps = []) {nodeClass : NodeClass} {f : Fault} :
    ofNode c sizeOf n nodeClass ≠ .error (.fault f) := by
  have plain {x : Except ReplayError Plan} : orError x ≠ .error (.fault f) := by
    cases x <;> rintro ⟨⟩
  refine ofNode_cases (P := fun x => x ≠ .error (.fault f)) ?_ plain (fun _ => ?_) ?_ plain plain
    plain plain
  · rintro - ⟨⟩
  · cases hops : requireNonzero n "num_ops" n.attributes.numOps with
    | error e => simp only [ofComputation, hops]; rintro ⟨⟩
    | ok numOps =>
        cases hown : require n "tensor_size" n.attributes.tensorSize with
        | error e => simp only [ofComputation, hops, hown]; rintro ⟨⟩
        | ok own =>
            rw [ofComputation_eq hops hown, ioSize, alone, List.foldlM_nil]
            cases n.tensorSize <;> rintro ⟨⟩
  · rintro _ ⟨⟩

/-- Only nodes under the roofline model add up bytes, so that only their planning can fault. -/
theorem byRoofline_of_fault {f : Fault} (h : ofNode c sizeOf n n.nodeClass = .error (.fault f)) :
    n.ByRoofline c := by
  refine Classical.byContradiction fun hother => ?_
  -- the plan is that of the node without data parents, which has nothing to add up
  let alone : Node := { n with dataDeps := [] }
  have hplan : ofNode c sizeOf alone alone.nodeClass = ofNode c sizeOf n n.nodeClass :=
    ofNode_congr hother rfl rfl rfl
  exact ofNode_ne_fault rfl (hplan.trans h)

/-- **Planning faults exactly if the bytes that a node under the roofline model touches leave the range of
counters.** -/
theorem ofNode_eq_fault_iff (known : ∀ p ∈ n.dataDeps, (sizeOf p).isSome = true) {f : Fault} :
    ofNode c sizeOf n n.nodeClass = .error (.fault f) ↔
      f = .sumTooLarge ∧ n.ByRoofline c ∧ n.dataDeps ≠ [] ∧ Counter.limit ≤ touched sizeOf n := by
  constructor
  · intro h
    have hroofline := byRoofline_of_fault h
    obtain ⟨numOps, -, hplan⟩ := ofNode_of_byRoofline sizeOf hroofline
    rw [hplan, ioSize_eq known] at h
    split at h
    · revert h
      cases touched sizeOf n <;> rintro ⟨⟩
    next hlarge =>
      cases h
      rw [not_or, Nat.not_lt] at hlarge
      exact ⟨rfl, hroofline, hlarge⟩
  · rintro ⟨rfl, hroofline, hne, hlarge⟩
    obtain ⟨numOps, -, hplan⟩ := ofNode_of_byRoofline sizeOf hroofline
    rw [hplan, ioSize_eq known, if_neg (by rw [not_or, Nat.not_lt]; exact ⟨hne, hlarge⟩)]
    rfl

end Plan

/-- The data parents of a node of the trace have sizes. -/
theorem Setup.known_of_mem {s : Setup} {n : Node} (hn : n ∈ s.trace) :
    ∀ p ∈ n.dataDeps, (s.graph.tensorSizeOf p).isSome = true := by
  intro p hp
  have hknown := s.built.parents_known n hn p (List.mem_append_left _ hp)
  obtain ⟨parent, hparent⟩ := Option.isSome_iff_exists.1 hknown
  simp [Graph.tensorSizeOf, hparent]

end TraceReplay
