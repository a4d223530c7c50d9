/-
**Nodes that cannot be planned.**

A lenient run skips a node that cannot be planned as if its kind were the invalid one, but not always at
the same moment: a drain looks for a slot before it plans a node, so a bad node waits for a slot that it
will never take.  Where one is free whenever a drain comes to a bad node the two treatments agree.

Main definitions:

* `Setup.isBad`, `Setup.void` — a node that cannot be planned, and the node that stands in for it;
* `Setup.voided` — the trace in which all bad nodes are replaced;
* `Setup.usersOf` — how many nodes may ever hold a slot of a resource.

Main results:

* `Setup.run_voided` — bad nodes run like invalid ones as long as they find a slot;
* `Setup.hasRoom_of_usersOf_lt` — a condition on the trace under which they do;
* `Setup.crowd_waits` — a bad node that does not.
-/

import TraceReplay.Proofs.Engine.Disguise
import TraceReplay.Proofs.Engine.Returns
import TraceReplay.Proofs.Stall

set_option relaxedAutoImplicit false
set_option autoImplicit false

namespace TraceReplay

open TraceReplay.Action

/-- The engine of another graph is made alike. -/
theorem Workload.create_withGraph {files : FileTree} {config : EngineConfig} {g : Graph}
    {adapter : Adapter} {w : Workload} {entries : List Entry}
    (h : Workload.create files config g adapter = .ok (w, entries)) (g' : Graph) :
    Workload.create files config g' adapter = .ok ({ w with graph := g' }, entries) := by
  rw [create] at h ⊢
  cases hvalid : config.validate with
  | error e => rw [hvalid] at h; cases h
  | ok _ =>
      cases hgroup : groupOf files config with
      | error e => rw [hvalid, hgroup] at h; cases h
      | ok group =>
          rw [hvalid, hgroup] at h
          cases h
          rfl

namespace Setup

variable (s : Setup)

/-! ### Bad nodes and their stand-ins -/

/-- Whether a node cannot be planned. -/
def isBad (n : Node) : Bool :=
  match s.workload.planOf n with
  | .error (.error _) => true
  | _ => false

/-- The node itself, or a node of the invalid kind if it is bad. -/
def void (n : Node) : Node := if s.isBad n then { n with kind := .invalid } else n

/-- How many nodes use a resource and can be planned, so that they may hold a slot of it. -/
def usersOf (r : Resource) : Nat :=
  s.trace.countP fun n => !s.isBad n && Resource.ofClass? n.nodeClass = some r

theorem id_void (n : Node) : (s.void n).id = n.id := by
  rw [void]
  split <;> rfl

theorem distinctParents_void (n : Node) : (s.void n).distinctParents = n.distinctParents := by
  rw [void]
  split <;> rfl

theorem tensorSize_void (n : Node) : (s.void n).tensorSize = n.tensorSize := by
  rw [void]
  split <;> rfl

/-- The trace in which every bad node is replaced. -/
def voided : Setup where
  trace := s.trace.map s.void
  files := s.files
  config := s.config
  graph := s.graph.mapNodes s.void
  workload := { s.workload with graph := s.graph.mapNodes s.void }
  entries := s.entries
  accepted := by
    rw [Graph.ofNodes_map s.id_void s.distinctParents_void, s.accepted]
    rfl
  created := Workload.create_withGraph s.created _

theorem engine_voided {κ : Type} (k : κ) :
    s.voided.engine k = (Disguise.ofNodes s.void).engine (s.engine k) := by
  obtain ⟨-, group, hw⟩ := s.created_iff
  simp only [Setup.engine, voided, Disguise.engine, Disguise.workload, hw]
  rfl

/-! ### What is made of them -/

variable {s}

/-- A lenient run skips bad nodes. -/
theorem decision_of_isBad (lenient : s.config.isStrict = false) {id : NodeId} {n : Node}
    (hn : s.graph.lookup id = some n) (bad : s.isBad n = true) :
    s.workload.decision n = .ok .skip := by
  obtain ⟨-, group, hw⟩ := s.created_iff
  have hstrict : s.workload.config.isStrict = false := by rw [hw]; exact lenient
  unfold isBad at bad
  split at bad
  next x hplan =>
    have hforgives : s.workload.forgives x = true := by
      rw [Workload.forgives, hstrict, s.isLocal_of_planOf hn hplan]
      rfl
    simp only [Workload.decision, hplan, hforgives, ↓reduceIte]
  next => cases bad

/-- A node of the invalid kind is skipped. -/
theorem decision_invalid (w : Workload) (n : Node) :
    w.decision { n with kind := .invalid } = .ok .skip := rfl

theorem void_of_not_skips (lenient : s.config.isStrict = false) {id : NodeId} {n : Node}
    (hn : s.graph.lookup id = some n) (hkeeps : ¬s.workload.Skips n) : s.void n = n := by
  refine if_neg fun bad => hkeeps ?_
  rw [Workload.skips_iff_decision]
  exact decision_of_isBad lenient hn bad

/-- Only nodes that can be planned hold slots. -/
theorem runningOn_le_usersOf {κ : Type} {m : Moment κ} (h : Coherent s m)
    (lenient : s.config.isStrict = false) (r : Resource) :
    runningOn s.graph m.workload.statistics.records r ≤ s.usersOf r := by
  rw [usersOf, List.countP_eq_length_filter, runningOn, ← SortedMap.ncard_setOf]
  set users := s.trace.filter fun n => !s.isBad n && Resource.ofClass? n.nodeClass = some r
  calc _ ≤ ((users.map Node.id).toFinset : Set NodeId).ncard := by
        refine Set.ncard_le_ncard ?_ (Finset.finite_toSet _)
        rintro id ⟨record, hrecord, hrunning⟩
        simp only [Bool.and_eq_true, decide_eq_true_eq, resourceOf, Option.bind_eq_some_iff] at hrunning
        obtain ⟨hopen, n, hn, hresource⟩ := hrunning
        have hkeeps := h.not_skips_of_running
          (Record.running_iff.2 ⟨record, hrecord, Option.isNone_iff_eq_none.1 hopen⟩) hn
        have hgood : s.isBad n ≠ true := fun bad =>
          hkeeps (Workload.skips_iff_decision.2 (decision_of_isBad lenient hn bad))
        obtain ⟨hmem, hid⟩ := (s.built.lookup_iff id n).1 hn
        refine List.mem_toFinset.2 (List.mem_map.2 ⟨n, List.mem_filter.2 ⟨hmem, ?_⟩, hid⟩)
        simp [hgood, hresource]
    _ = (users.map Node.id).toFinset.card := Set.ncard_coe_finset _
    _ ≤ (users.map Node.id).length := List.toFinset_card_le _
    _ = users.length := List.length_map _

/-- A bad node finds a slot if there are more of them than nodes that can ever hold one. -/
theorem hasRoom_of_usersOf_lt (lenient : s.config.isStrict = false)
    (roomy : ∀ n ∈ s.trace, s.isBad n = true → ∀ r, Resource.ofClass? n.nodeClass = some r →
      s.usersOf r < s.config.resources.get r) (c : AnalyticalConfig) (m : Moment Analytical)
    (id : NodeId) (n : Node) (rest : List NodeId) (visits : s.Visits c m) (front : m.Front id n rest)
    (bad : s.isBad n = true) : m.workload.pool.hasRoom n.nodeClass = true := by
  obtain ⟨h, hunfreed⟩ := visits.coherent
  obtain ⟨hn, -⟩ := h.front front
  obtain ⟨hmem, -⟩ := (s.built.lookup_iff id n).1 hn
  refine (SlotPool.hasRoom_iff _ _).2 fun r hr => ?_
  rw [h.slots.taken r, hunfreed, List.countP_nil, Nat.add_zero, h.slots.capacity_eq]
  exact Nat.lt_of_le_of_lt (runningOn_le_usersOf h lenient r) (roomy n hmem bad r hr)

/-- The engine does not notice that bad nodes are replaced, as long as it finds the same slots free. -/
theorem fits_void (lenient : s.config.isStrict = false) (κ : Type) [Kernel κ] :
    (Disguise.ofNodes s.void).Fits s κ fun _ => False := by
  refine Disguise.fits_ofNodes s.id_void s.tensorSize_void ?_ ?_ ?_
  · intro id n hn
    by_cases bad : s.isBad n = true
    · rw [decision_of_isBad lenient hn bad, void, if_pos bad, decision_invalid]
    · rw [void, if_neg bad]
  · intro id n hn hkeeps
    rw [void_of_not_skips lenient hn hkeeps]
  · intro id n hn hkeeps
    rw [void_of_not_skips lenient hn hkeeps]

/-- **Bad nodes run like invalid ones as long as they find a slot.**  If no drain of a lenient run comes
to a bad node while its resource is full, then the run is that of the trace in which the bad nodes are
replaced by invalid ones: it ends in the same way, with the same requests, the same statistics and the
same clock. -/
theorem run_voided (s : Setup) (lenient : s.config.isStrict = false) (c : AnalyticalConfig)
    (prompt : ∀ m id n rest, s.Visits c m → m.Front id n rest → s.isBad n = true →
      m.workload.pool.hasRoom n.nodeClass = true) (j j' : Array Entry) :
    Ends Replay.run ⟨s.engine { config := c }, j⟩
      (fun tick t => Ends Replay.run ⟨s.voided.engine { config := c }, j'⟩
        (fun tick' t' => tick' = tick ∧ t'.state.workload.statistics = t.state.workload.statistics ∧
          t'.state.asked = t.state.asked ∧ t'.state.kernel = t.state.kernel)
        fun _ _ => False)
      fun stop t => Ends Replay.run ⟨s.voided.engine { config := c }, j'⟩ (fun _ _ => False)
        fun stop' t' => stop' = stop ∧
          t'.state.workload.statistics = t.state.workload.statistics ∧
          t'.state.asked = t.state.asked ∧ t'.state.kernel = t.state.kernel := by
  have alike : ∀ m id n rest, s.Visits c m → m.Front id n rest →
      m.workload.pool.hasRoom (s.void n).nodeClass = m.workload.pool.hasRoom n.nodeClass := by
    intro m id n rest visits front
    rw [void]
    split
    next bad => exact (prompt m id n rest visits front bad).symm
    next => rfl
  have hrun := (fits_void lenient Analytical).mirrors_run alike j j'
  rw [← s.engine_voided] at hrun
  refine hrun.imp (fun tick t hok => hok.imp ?_ fun _ _ hfalse => hfalse) fun stop t hstop =>
    (hstop.resolve_left id).imp (fun _ _ hfalse => hfalse) ?_
  · rintro tick' t' ⟨ht, htick⟩
    rw [ht]
    exact ⟨htick, Disguise.statistics_ofNodes _ _, rfl, rfl⟩
  · rintro stop' t' ⟨hsame, ht⟩
    rw [ht]
    exact ⟨hsame, Disguise.statistics_ofNodes _ _, rfl, rfl⟩

/-- A computation on the CPU, one that cannot be planned, and one on the GPU after that. -/
@[irreducible] def crowd (capacity : Capacity) (valid : capacity.validate = .ok ()) : Setup :=
  let task (id : NodeId) (dataDeps : List NodeId) (attributes : Attributes) : Node :=
    { id, name := "task", kind := .compute, dataDeps, ctrlDeps := [], attributes }
  .ofTrace { validation := .lenient, resources := capacity } [
    task 1 [] { runtime := some 3 },
    task 2 [] {},
    task 3 [2] { runtime := some 3, isCpuOp := some false }] ⟨rfl, by
      show (capacity.validate >>= fun _ => _) = _
      rw [valid]
      rfl, rfl⟩

/-- With two slots of each resource the bad node of the crowd is skipped at once. -/
theorem run_voided_crowd : ∃ t t',
    Replay.run ⟨(crowd (.uniform 2) rfl).engine { config := {} }, #[]⟩ = .ok 3000 t ∧
      Replay.run ⟨(crowd (.uniform 2) rfl).voided.engine { config := {} }, #[]⟩ = .ok 3000 t' ∧
      t'.state.workload.statistics = t.state.workload.statistics := by
  have hlenient : (crowd (.uniform 2) rfl).config.isStrict = false := by decide +kernel
  have hroomy : ∀ n ∈ (crowd (.uniform 2) rfl).trace, (crowd (.uniform 2) rfl).isBad n = true →
      ∀ r ∈ Resource.all, Resource.ofClass? n.nodeClass = some r →
        (crowd (.uniform 2) rfl).usersOf r < (crowd (.uniform 2) rfl).config.resources.get r := by
    decide +kernel
  have hruns : Ends Replay.run ⟨(crowd (.uniform 2) rfl).engine { config := {} }, #[]⟩
      (fun tick _ => tick = 3000) fun _ _ => False := by decide +kernel
  have hprompt := hasRoom_of_usersOf_lt hlenient
    (fun n hn bad r => hroomy n hn bad r (by cases r <;> decide)) {}
  have hsame := run_voided (crowd (.uniform 2) rfl) hlenient {} hprompt #[] #[]
  obtain ⟨tick, t, hrun, rfl⟩ := hruns.exists_ok
  obtain ⟨tick', t', hrun', rfl, hstatistics, -⟩ := (hsame.of_ok hrun).exists_ok
  exact ⟨t, t', hrun, hrun', hstatistics⟩

/-- With one slot of each it waits for the computation on the CPU, and the one on the GPU with it, while
an invalid node would have been skipped at once. -/
theorem crowd_waits :
    Ends Replay.run ⟨(crowd .standard rfl).engine { config := {} }, #[]⟩
      (fun tick t => tick = 6000 ∧
        (t.state.workload.statistics.records.find? 2).map Record.start = some 3000)
      (fun _ _ => False) ∧
    Ends Replay.run ⟨(crowd .standard rfl).voided.engine { config := {} }, #[]⟩
      (fun tick t => tick = 3000 ∧
        (t.state.workload.statistics.records.find? 2).map Record.start = some 0)
      fun _ _ => False := by
  decide +kernel

end Setup

end TraceReplay
