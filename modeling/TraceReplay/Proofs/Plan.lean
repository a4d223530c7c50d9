/-
**What planning a node can come to.**

Planning looks at the attributes of one node and at the tensor sizes of its data parents.  Its outcomes
are few: only nodes without class are planned to be skipped, the roofline model is used only where there
is one and then with operations and bytes to speak of, and every error concerns the node itself, unless
a parent is unknown.

Main definitions:

* `Plan.Sound` — the outcomes that planning can have;
* `Plan.ofSize` — the plan of a computation, given the bytes that it touches.

Main results:

* `Plan.ofNode_cases` — what is true of what every class can come to is true of what planning comes to;
* `Plan.sound_ofNode` — planning has no other outcomes;
* `Plan.mem_invalidNodes` — the list of bad nodes names every node that cannot be planned.
-/

import TraceReplay.Plan

set_option relaxedAutoImplicit false
set_option autoImplicit false

namespace TraceReplay

namespace Plan

/-! ### Plans from the attributes alone -/

/-- A plan that asks for something without the roofline model, or an error that concerns its node
only. -/
def Plain : Except ReplayError Plan → Prop
  | .ok p => p ≠ .skip ∧ ∀ numOps ioSize, p ≠ .roofline numOps ioSize
  | .error e => e.isLocal = true

variable {α : Type} {n : Node} {c : EngineConfig} {sizeOf : NodeId → Option Nat}

theorem plain_require {name : String} {value : Option α} {f : α → Except ReplayError Plan}
    (h : ∀ a, Plain (f a)) : Plain (require n name value >>= f) := by
  cases value with
  | none => rfl
  | some a => exact h a

theorem requireNonzero_cases (n : Node) (name : String) (value : Option Nat) :
    (∃ v, v ≠ 0 ∧ requireNonzero n name value = .ok v) ∨
      ∃ e, e.isLocal = true ∧ requireNonzero n name value = .error e := by
  match value with
  | none => exact .inr ⟨.missingAttribute n.id name, rfl, rfl⟩
  | some 0 => exact .inr ⟨.validation n.id s!"'{name}' must be non-zero", rfl, rfl⟩
  | some (v + 1) => exact .inl ⟨v + 1, by omega, rfl⟩

theorem plain_replay : Plain (replay c n) :=
  plain_require fun _ => ⟨by simp, by simp⟩

theorem plain_ofRemoteMemory : Plain (ofRemoteMemory n) := by
  refine plain_require fun _ => ?_
  obtain ⟨v, -, hv⟩ | ⟨e, he, hv⟩ := requireNonzero_cases n "tensor_size" n.attributes.tensorSize
  · rw [hv]
    exact ⟨by simp, by simp⟩
  · rw [hv]
    exact he

theorem plain_ofCollective : Plain (ofCollective c n) := by
  refine plain_require fun kind => plain_require fun size => ?_
  by_cases hs : kind.isSupported = true
  · by_cases hp : kind.hasPrimitive = true
    · simp only [hs, hp]
      exact ⟨by simp, by simp⟩
    · simp only [hs, hp]
      exact ⟨by simp, by simp⟩
  · simp only [hs]
    rfl

theorem plain_ofSend : Plain (ofSend c n) :=
  plain_require fun _ => plain_require fun _ => ⟨by simp, by simp⟩

theorem plain_ofReceive : Plain (ofReceive c n) :=
  plain_require fun _ => plain_require fun _ => ⟨by simp, by simp⟩

/-! ### All plans -/

/-- The outcomes that planning a node of a class can have. -/
def Sound (c : EngineConfig) (sizeOf : NodeId → Option Nat) (n : Node) (nodeClass : NodeClass) :
    Except Stop Plan → Prop
  | .ok p => (p = .skip ↔ nodeClass = .invalid) ∧
      ∀ numOps ioSize, p = .roofline numOps ioSize →
        c.roofline.isSome = true ∧ numOps ≠ 0 ∧ ioSize ≠ 0
  | .error (.error e) => e.isLocal = true ∨ ∃ p ∈ n.dataDeps, sizeOf p = none ∧ e = .unknownNode p
  | .error (.fault f) => f = .sumTooLarge

theorem Plain.sound {x : Except ReplayError Plan} (h : Plain x) {nodeClass : NodeClass}
    (hc : nodeClass ≠ .invalid) : Sound c sizeOf n nodeClass (orError x) := by
  cases x with
  | ok p =>
      refine ⟨by simp [h.1, hc], ?_⟩
      rintro numOps ioSize rfl
      exact absurd rfl (h.2 numOps ioSize)
  | error e => exact .inl h

/-- The bytes touched cannot be summed if a parent is unknown or the sum leaves the range. -/
theorem foldlM_addParent {ps : List NodeId} : ∀ {total : Nat} {stop : Stop},
    ps.foldlM (addParent sizeOf) total = .error stop →
      (∃ p ∈ ps, sizeOf p = none ∧ stop = .error (.unknownNode p)) ∨ stop = .fault .sumTooLarge := by
  induction ps with
  | nil => intro total stop h; cases h
  | cons p ps ih =>
      intro total stop h
      rw [List.foldlM_cons] at h
      cases hp : sizeOf p with
      | none =>
          simp only [addParent, hp] at h
          cases h
          exact .inl ⟨p, List.mem_cons_self, hp, rfl⟩
      | some size =>
          by_cases hsum : total + size < Counter.limit
          · simp only [addParent, hp, Counter.add, if_pos hsum] at h
            rcases ih h with ⟨q, hq, hnone, rfl⟩ | rfl
            · exact .inl ⟨q, List.mem_cons_of_mem _ hq, hnone, rfl⟩
            · exact .inr rfl
          · simp only [addParent, hp, Counter.add, if_neg hsum] at h
            cases h
            exact .inr rfl

/-- The plan of a computation, given the bytes that it touches if they can be added up. -/
def ofSize (id : NodeId) (numOps : Nat) : Except Stop Nat → Except Stop Plan
  | .error stop => .error stop
  | .ok 0 => .error (.error (.validation id "roofline needs a non-zero touched tensor size"))
  | .ok (size + 1) => .ok (.roofline numOps (size + 1))

/-- A computation that is planned with some operations and a tensor is planned by the bytes that it
touches. -/
theorem ofComputation_eq {numOps own : Nat}
    (hops : requireNonzero n "num_ops" n.attributes.numOps = .ok numOps)
    (hown : require n "tensor_size" n.attributes.tensorSize = .ok own) :
    ofComputation sizeOf n = ofSize n.id numOps (ioSize sizeOf n) := by
  simp only [ofComputation, hops, hown]
  cases ioSize sizeOf n with
  | error stop => rfl
  | ok size => cases size <;> rfl

theorem sound_ofComputation {nodeClass : NodeClass} (hc : nodeClass ≠ .invalid)
    (hr : c.roofline.isSome = true) : Sound c sizeOf n nodeClass (ofComputation sizeOf n) := by
  obtain ⟨numOps, hne, hops⟩ | ⟨e, he, hops⟩ :=
    requireNonzero_cases n "num_ops" n.attributes.numOps
  · cases hs : n.attributes.tensorSize with
    | none =>
        simp only [ofComputation, hops, hs]
        exact .inl rfl
    | some own =>
        have hown : require n "tensor_size" n.attributes.tensorSize = .ok own := by
          rw [hs]
          rfl
        rw [ofComputation_eq hops hown]
        cases hio : ioSize sizeOf n with
        | error stop =>
            rcases foldlM_addParent hio with ⟨p, hp, hnone, rfl⟩ | rfl
            · exact .inr ⟨p, hp, hnone, rfl⟩
            · exact rfl
        | ok size =>
            cases size with
            | zero => exact .inl rfl
            | succ size =>
                refine ⟨by simp [hc], ?_⟩
                rintro _ _ ⟨⟩
                exact ⟨hr, hne, Nat.succ_ne_zero size⟩
  · simp only [ofComputation, hops]
    exact .inl he

/-- A plan depends on the tensor sizes of the data parents only. -/
theorem ofNode_congr_sizes {sizeOf' : NodeId → Option Nat}
    (h : ∀ p ∈ n.dataDeps, sizeOf' p = sizeOf p) (nodeClass : NodeClass) :
    ofNode c sizeOf' n nodeClass = ofNode c sizeOf n nodeClass := by
  have hfold : ∀ (ps : List NodeId) (total : Nat), (∀ p ∈ ps, sizeOf' p = sizeOf p) →
      ps.foldlM (addParent sizeOf') total = ps.foldlM (addParent sizeOf) total := by
    intro ps
    induction ps with
    | nil => exact fun _ _ => rfl
    | cons p ps ih =>
        intro total hps
        obtain ⟨hp, hps⟩ := List.forall_mem_cons.1 hps
        have hadd : addParent sizeOf' total p = addParent sizeOf total p := by
          rw [addParent, addParent, hp]
        rw [List.foldlM_cons, List.foldlM_cons, hadd]
        exact bind_congr fun total => ih total hps
  have hio : ioSize sizeOf' n = ioSize sizeOf n := hfold n.dataDeps n.tensorSize h
  have hcomputation : ofComputation sizeOf' n = ofComputation sizeOf n := by
    rw [ofComputation, ofComputation, hio]
  rw [ofNode.eq_def, ofNode.eq_def, hcomputation]

/-- What is true of what every class can come to is true of what planning comes to. -/
theorem ofNode_cases {P : Except Stop Plan → Prop} {nodeClass : NodeClass}
    (skip : nodeClass = .invalid → P (.ok .skip)) (replays : P (orError (replay c n)))
    (computes : c.roofline.isSome = true → P (ofComputation sizeOf n))
    (unsupported : ∀ text, P (.error (.error (.unsupported text))))
    (moves : P (orError (ofRemoteMemory n))) (gathers : P (orError (ofCollective c n)))
    (sends : P (orError (ofSend c n))) (receives : P (orError (ofReceive c n))) :
    P (ofNode c sizeOf n nodeClass) := by
  rw [ofNode.eq_def]
  split
  next hc => exact skip hc
  next hc =>
    split
    · exact replays
    · cases nodeClass with
      | cpuCompute =>
          dsimp only
          split
          next hr => exact computes hr
          next => exact replays
      | gpuCompute =>
          dsimp only
          split
          · exact unsupported _
          · exact replays
      | memLoad => exact moves
      | memStore => exact moves
      | collective => exact gathers
      | send => exact sends
      | receive => exact receives
      | invalid => exact absurd rfl hc

/-- **Planning a node has no outcomes but the sound ones.** -/
theorem sound_ofNode (c : EngineConfig) (sizeOf : NodeId → Option Nat) (n : Node)
    (nodeClass : NodeClass) : Sound c sizeOf n nodeClass (ofNode c sizeOf n nodeClass) := by
  by_cases hc : nodeClass = .invalid
  · rw [ofNode.eq_def, if_pos hc]
    exact ⟨by simp [hc], by simp⟩
  · exact ofNode_cases (fun h => absurd h hc) (plain_replay.sound hc) (sound_ofComputation hc)
      (fun _ => .inl rfl) (plain_ofRemoteMemory.sound hc) (plain_ofCollective.sound hc)
      (plain_ofSend.sound hc) (plain_ofReceive.sound hc)

/-- The list of bad nodes names every node that cannot be planned. -/
theorem mem_invalidNodes {ns : List Node} : ∀ {bad : List (NodeId × String)},
    invalidNodes c sizeOf ns = .ok bad → ∀ n ∈ ns, ∃ problem, problem? c sizeOf n = .ok problem ∧
      ∀ e, problem = some e → (n.id, e.message) ∈ bad := by
  induction ns with
  | nil => intro bad _ n hn; cases hn
  | cons n ns ih =>
      intro bad h
      rw [invalidNodes, List.mapM_cons] at h
      cases hn : problem? c sizeOf n with
      | error f => rw [hn] at h; cases h
      | ok problem =>
          rw [hn] at h
          cases hrest : ns.mapM fun n => do return (n.id, ← problem? c sizeOf n) with
          | error f =>
              rw [hrest] at h
              cases h
          | ok problems =>
              rw [hrest] at h
              cases h
              -- the list is that of the remaining nodes, with the first one in front if it is bad
              have hbad : invalidNodes c sizeOf ns = .ok (problems.filterMap fun p =>
                  p.2.map fun e => (p.1, e.message)) := by
                rw [invalidNodes, hrest]
                rfl
              intro n' hn'
              rcases List.mem_cons.1 hn' with rfl | hn'
              · refine ⟨problem, hn, ?_⟩
                rintro e rfl
                exact List.mem_cons_self
              · obtain ⟨problem', hproblem, hmem⟩ := ih hbad n' hn'
                refine ⟨problem', hproblem, fun e he => ?_⟩
                have := hmem e he
                simp only [List.filterMap_cons]
                split
                · exact this
                · exact List.mem_cons_of_mem _ this

end Plan

end TraceReplay
