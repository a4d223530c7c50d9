/-
**Tensor lists that cannot be read.**

A node with a tensor list that is absent or malformed does its work, but its traffic is not recorded.
The error turns up after the record of the node and its interval are closed, and possibly after the other
list was read.  A lenient run forgives it.  Here it is shown that such a run then goes on exactly as if
both lists had been empty.

Main definitions:

* `Node.isLegible`, `Node.emptied` — whether both lists can be read, and the node with empty lists if not;
* `Setup.emptied` — the trace in which all lists of such nodes are empty;
* `Action.Pardons` — one action returns where the other stops over what is forgiven.

Main results:

* `Statistics.pardons_emptied`, `Engine.mirrors_recordEnd_emptied` — closing the record of such a node;
* `Setup.emptied_agrees` — **a lenient run does not notice whether a list is empty or cannot be read**.
-/

import TraceReplay.Proofs.BadNodes

set_option relaxedAutoImplicit false
set_option autoImplicit false

namespace TraceReplay

open TraceReplay.Action

/-! ### Nodes with empty lists -/

namespace Node

/-- Whether both tensor lists can be read. -/
def isLegible (n : Node) : Bool := n.inputTensors.isOk && n.outputTensors.isOk

/-- The node itself, or one with empty lists if its own cannot be read. -/
def emptied (n : Node) : Node :=
  if n.isLegible then n
  else { n with attributes := { n.attributes with inputs := some [], outputs := some [] } }

variable {n : Node}

theorem emptied_of_isLegible (h : n.isLegible = true) : n.emptied = n := if_pos h

/-- A node with empty lists differs in nothing else. -/
theorem emptied_eq (n : Node) : ∃ inputs outputs,
    n.emptied = { n with attributes := { n.attributes with inputs, outputs } } := by
  rw [emptied]
  split
  · exact ⟨n.attributes.inputs, n.attributes.outputs, rfl⟩
  · exact ⟨some [], some [], rfl⟩

theorem id_emptied (n : Node) : n.emptied.id = n.id := by
  obtain ⟨inputs, outputs, h⟩ := n.emptied_eq
  rw [h]

theorem distinctParents_emptied (n : Node) : n.emptied.distinctParents = n.distinctParents := by
  obtain ⟨inputs, outputs, h⟩ := n.emptied_eq
  rw [h]
  rfl

theorem tensorSize_emptied (n : Node) : n.emptied.tensorSize = n.tensorSize := by
  obtain ⟨inputs, outputs, h⟩ := n.emptied_eq
  rw [h]
  rfl

theorem nodeClass_emptied (n : Node) : n.emptied.nodeClass = n.nodeClass := by
  obtain ⟨inputs, outputs, h⟩ := n.emptied_eq
  rw [h]
  rfl

/-- Empty lists are read. -/
theorem tensors_emptied (h : n.isLegible = false) :
    n.emptied.inputTensors = .ok [] ∧ n.emptied.outputTensors = .ok [] := by
  rw [emptied, if_neg (Bool.eq_false_iff.1 h)]
  exact ⟨rfl, rfl⟩

/-- Otherwise the first list that cannot be read says why. -/
theorem error_of_not_isLegible (h : n.isLegible = false) : ∃ x, x.isLocal = true ∧
    (n.inputTensors = .error x ∨ (∃ inputs, n.inputTensors = .ok inputs) ∧ n.outputTensors = .error x) := by
  cases hin : n.inputTensors with
  | error x => exact ⟨x, isLocal_of_tensorsOf hin, .inl rfl⟩
  | ok inputs =>
      cases hout : n.outputTensors with
      | error x => exact ⟨x, isLocal_of_tensorsOf hout, .inr ⟨⟨inputs, rfl⟩, rfl⟩⟩
      | ok outputs => simp [isLegible, hin, hout, Except.isOk, Except.toBool] at h

end Node

/-- No plan looks at the tensor lists. -/
theorem Plan.ofNode_emptied (c : EngineConfig) (sizeOf : NodeId → Option Nat) (n : Node)
    (nodeClass : NodeClass) : ofNode c sizeOf n.emptied nodeClass = ofNode c sizeOf n nodeClass := by
  obtain ⟨inputs, outputs, h⟩ := n.emptied_eq
  rw [h]
  rfl

/-! ### Closing the record of such a node -/

/-- The second action does what the first does, except that it returns where the first stops over
something that a lenient run forgives. -/
def Action.Pardons {σ : Type} (act act' : Action Stop σ Unit) (a : σ) : Prop :=
  ∀ j j', Ends act ⟨a, j⟩
    (fun _ t => Ends act' ⟨a, j'⟩ (fun _ t' => t'.state = t.state) fun _ _ => False)
    fun stop t => Ends act' ⟨a, j'⟩
      (fun _ t' => t'.state = t.state ∧ ∃ x, stop = .error x ∧ x.isLocal = true)
      fun stop' t' => stop' = stop ∧ t'.state = t.state

section

variable {n : Node} (illegible : n.isLegible = false)

namespace Tracker

variable {m : Tracker} {start tick : Tick} {j : Array Entry}

include illegible in
/-- **No read or write is left behind**, whichever list cannot be read: the interval is closed, and that
is all. -/
theorem ends_recordEnd_illegible (hopen : m.opened.find? n.id = some start) :
    Ends (recordEnd n tick) ⟨m, j⟩ (fun _ _ => False) fun stop t =>
      t.state = { m with opened := m.opened.erase n.id } ∧
        ∃ x, stop = .error x ∧ x.isLocal = true := by
  obtain ⟨x, hlocal, hin | ⟨⟨inputs, hin⟩, hout⟩⟩ := n.error_of_not_isLegible illegible
  · simp only [recordEnd, ends_bind, ends_get, hopen, ends_put, hin]
    exact ⟨rfl, x, rfl, hlocal⟩
  · simp only [recordEnd, ends_bind, ends_get, hopen, ends_put, hin, hout]
    exact ⟨rfl, x, rfl, hlocal⟩

include illegible in
/-- The same is done for empty lists, without an error. -/
theorem ends_recordEnd_emptied (hopen : m.opened.find? n.id = some start) :
    Ends (recordEnd n.emptied tick) ⟨m, j⟩
      (fun _ t => t.state = { m with opened := m.opened.erase n.id }) fun _ _ => False := by
  obtain ⟨hin, hout⟩ := n.tensors_emptied illegible
  simp only [recordEnd, ends_bind, ends_get, n.id_emptied, hopen, ends_put, hin, hout]
  rfl

include illegible in
theorem pardons_emptied (m : Tracker) (tick : Tick) :
    Pardons (recordEnd n tick) (recordEnd n.emptied tick) m := by
  intro j j'
  cases hopen : m.opened.find? n.id with
  | none =>
      simp only [recordEnd, ends_bind, ends_get, n.id_emptied, hopen]
      exact ⟨rfl, rfl⟩
  | some start =>
      refine (ends_recordEnd_illegible illegible hopen).imp (fun _ _ hfalse => hfalse.elim) ?_
      rintro stop t ⟨ht, hlocal⟩
      exact (ends_recordEnd_emptied illegible hopen).imp (fun _ t' ht' => ⟨ht'.trans ht.symm, hlocal⟩)
        fun _ _ hfalse => hfalse.elim

end Tracker

include illegible in
/-- The record of the node is closed before its lists are looked at. -/
theorem Statistics.pardons_emptied (st : Statistics) (tick : Tick) :
    Pardons (recordEnd n tick) (recordEnd n.emptied tick) st := by
  intro j j'
  simp only [recordEnd, ends_bind, ends_get, n.id_emptied]
  cases st.records.find? n.id with
  | none => exact ⟨rfl, rfl⟩
  | some r =>
      dsimp only
      by_cases early : tick < r.start
      · simp only [early, ↓reduceIte]
        exact ⟨rfl, rfl⟩
      · simp only [early, ↓reduceIte, ends_bind, ends_put]
        by_cases hskip : r.operatorType = .invalid
        · simp only [hskip, ne_eq, not_true_eq_false, ↓reduceIte, ends_pure]
        · simp only [hskip, ne_eq, not_false_eq_true, ↓reduceIte, onMemory, ends_bind, ends_get]
          cases st.memory with
          | none => rfl
          | some m =>
              simp only [ends_on]
              refine (Tracker.pardons_emptied illegible m tick j j').imp (fun _ t hok => ?_)
                fun stop t hstop => ?_
              · exact hok.imp (fun _ t' ht => by rw [ht]) fun _ _ hfalse => hfalse
              · refine hstop.imp ?_ ?_
                · rintro _ t' ⟨ht, hlocal⟩
                  exact ⟨by rw [ht], hlocal⟩
                · rintro _ t' ⟨hsame, ht⟩
                  exact ⟨hsame, by rw [ht]⟩

include illegible in
/-- The end of the node is recorded, its interval is closed, and that is all. -/
theorem Statistics.ends_recordEnd_illegible {st : Statistics} {r : Record} {m : Tracker}
    {start tick : Tick} {j : Array Entry} (hrecord : st.records.find? n.id = some r)
    (hstart : r.start ≤ tick) (hkept : r.operatorType ≠ .invalid) (hmemory : st.memory = some m)
    (hopen : m.opened.find? n.id = some start) :
    Ends (recordEnd n tick) ⟨st, j⟩ (fun _ _ => False) fun stop t =>
      t.state = { st with
        records := st.records.insert n.id { r with finish := some tick }
        memory := some { m with opened := m.opened.erase n.id } } ∧
      ∃ x, stop = .error x ∧ x.isLocal = true := by
  simp only [recordEnd, ends_bind, ends_get, hrecord, Nat.not_lt.2 hstart, ↓reduceIte, ends_put, hkept,
    ne_eq, not_false_eq_true, onMemory, hmemory, ends_on]
  refine (Tracker.ends_recordEnd_illegible illegible hopen).imp (fun _ _ hfalse => hfalse) ?_
  rintro stop t ⟨ht, hlocal⟩
  exact ⟨by rw [ht], hlocal⟩

/-! ### The engine -/

variable {κ : Type} {e : Engine κ} {tick : Tick}

theorem Workload.forgives_of_lenient {w : Workload} {x : ReplayError}
    (lenient : w.config.isStrict = false) (hlocal : x.isLocal = true) : w.forgives x = true := by
  rw [forgives, lenient, hlocal]
  rfl

include illegible in
/-- Records are closed alike, except that only one side may report an error that a lenient run forgives. -/
theorem Engine.mirrors_outcome_emptied [Kernel κ] {excused : Stop → Prop} (e : Engine κ) (tick : Tick) :
    Mirrors (Disguise.ofNodes Node.emptied).engine excused
      (Action.outcome (onStatistics (Statistics.recordEnd n tick)) : Act κ (Except Stop Unit))
      (Action.outcome (onStatistics (Statistics.recordEnd n.emptied tick))) e fun back back' e' =>
        e'.workload.config = e.workload.config ∧
          (back' = back ∨ back' = .ok () ∧ ∃ x, back = .error (.error x) ∧ x.isLocal = true) := by
  have hsame (st st' : Statistics) (h : st' = st) :
      { (Disguise.ofNodes Node.emptied).engine e with
        workload := { (Disguise.ofNodes Node.emptied).workload e.workload with statistics := st' } } =
      (Disguise.ofNodes Node.emptied).engine { e with
        workload := { e.workload with statistics := st } } := by
    simp only [Disguise.engine, Disguise.workload, Disguise.statistics_ofNodes, h]
  have hstatistics : ((Disguise.ofNodes Node.emptied).engine e).workload.statistics =
      e.workload.statistics := Disguise.statistics_ofNodes _ _
  intro j j'
  simp only [ends_outcome, onStatistics, ends_on]
  rw [hstatistics]
  refine (Statistics.pardons_emptied illegible e.workload.statistics tick j j').imp ?_ ?_
  · intro _ t hok
    exact hok.imp (fun _ t' ht => ⟨hsame _ _ ht, trivial, .inl trivial⟩) fun _ _ hfalse => hfalse.elim
  · intro stop t hstop
    refine hstop.imp ?_ ?_
    · rintro _ t' ⟨ht, x, rfl, hlocal⟩
      exact ⟨hsame _ _ ht, trivial, .inr ⟨trivial, x, rfl, hlocal⟩⟩
    · rintro _ t' ⟨rfl, ht⟩
      exact ⟨hsame _ _ ht, trivial, .inl rfl⟩

include illegible in
/-- **In a lenient run the record of a node is closed alike if its lists are empty.** -/
theorem Engine.mirrors_recordEnd_emptied [Kernel κ] {excused : Stop → Prop}
    (lenient : e.workload.config.isStrict = false) :
    Mirrors (Disguise.ofNodes Node.emptied).engine excused (recordEnd n tick : Act κ Unit)
      (recordEnd n.emptied tick) e fun _ _ _ => True := by
  refine mirrors_bind ((mirrors_outcome_emptied illegible e tick).imp ?_)
  rintro back back' e' ⟨hconfig, rfl | ⟨rfl, x, rfl, hlocal⟩⟩
  · cases back' with
    | ok _ => exact mirrors_pure trivial
    | error stop =>
        cases stop with
        | fault f => exact mirrors_throw _
        | error x =>
            refine mirrors_bind (Disguise.mirrors_workloadOf ?_)
            exact mirrors_ite Iff.rfl (fun _ => mirrors_note trivial) fun _ => mirrors_throw _
  · -- only here the two differ: the first forgives what the second does not meet
    intro j j'
    have hforgives : e'.workload.forgives x = true :=
      Workload.forgives_of_lenient (hconfig ▸ lenient) hlocal
    simp only [workloadOf, ends_bind, ends_get, ends_pure, hforgives, ↓reduceIte, ends_note]
    trivial

end

/-! ### Replays -/

namespace Setup

/-- The trace in which lists are empty if they cannot be read. -/
def emptied (s : Setup) : Setup where
  trace := s.trace.map Node.emptied
  files := s.files
  config := s.config
  graph := s.graph.mapNodes Node.emptied
  workload := { s.workload with graph := s.graph.mapNodes Node.emptied }
  entries := s.entries
  accepted := by
    rw [Graph.ofNodes_map Node.id_emptied Node.distinctParents_emptied, s.accepted]
    rfl
  created := Workload.create_withGraph s.created _

variable {s : Setup}

theorem engine_emptied (s : Setup) {κ : Type} (k : κ) :
    s.emptied.engine k = (Disguise.ofNodes Node.emptied).engine (s.engine k) := by
  obtain ⟨-, group, hw⟩ := s.created_iff
  simp only [Setup.engine, emptied, Disguise.engine, Disguise.workload, hw]
  rfl

/-- A lenient engine does not notice that lists are empty. -/
theorem fits_emptied (lenient : s.config.isStrict = false) (κ : Type) [Kernel κ] :
    (Disguise.ofNodes Node.emptied).Fits s κ fun _ => False := by
  refine Disguise.fits_ofNodes_of_closes Node.id_emptied Node.tensorSize_emptied (fun id n _ => ?_)
    (fun id n _ _ => n.nodeClass_emptied) fun e n tick hconfig _ _ => ?_
  · have hplan : s.workload.planOf n.emptied = s.workload.planOf n := by
      rw [Workload.planOf, Workload.planOf, Plan.ofNode_emptied, n.nodeClass_emptied]
    rw [Workload.decision, Workload.decision, hplan]
  · cases hlegible : n.isLegible with
    | true =>
        refine Disguise.mirrors_recordEnd_ofNodes ?_
        show Statistics.recordEnd n.emptied = _
        rw [Node.emptied_of_isLegible hlegible]
    | false => exact Engine.mirrors_recordEnd_emptied hlegible (by rw [hconfig]; exact lenient)

/-- **Tensor lists that cannot be read count as empty in a lenient run.**  The whole run ends in the same
way, with the same requests, the same clock and queue of the kernel, and the same statistics: records,
sizes, reads and writes of tensors, and the report.  Where the record of a node with such a list is
closed, its end is recorded and its interval is closed, and nothing else happens to the statistics; in
particular no read or write of the node is recorded. -/
theorem emptied_agrees (s : Setup) (lenient : s.config.isStrict = false) (c : AnalyticalConfig) :
    (∀ j j', Ends Replay.run ⟨s.engine { config := c }, j⟩
      (fun tick t => Ends Replay.run ⟨s.emptied.engine { config := c }, j'⟩
        (fun tick' t' => tick' = tick ∧ t'.state.workload.statistics = t.state.workload.statistics ∧
          t'.state.asked = t.state.asked ∧ t'.state.kernel = t.state.kernel)
        fun _ _ => False)
      fun stop t => Ends Replay.run ⟨s.emptied.engine { config := c }, j'⟩ (fun _ _ => False)
        fun stop' t' => stop' = stop ∧
          t'.state.workload.statistics = t.state.workload.statistics ∧
          t'.state.asked = t.state.asked ∧ t'.state.kernel = t.state.kernel) ∧
    ∀ (n : Node) (e : Engine Analytical) (r : Record) (m : Tracker) (start tick : Tick)
      (j : Array Entry), n.isLegible = false → e.workload.config = s.config →
        e.workload.statistics.records.find? n.id = some r → r.start ≤ tick →
        r.operatorType ≠ .invalid → e.workload.statistics.memory = some m →
        m.opened.find? n.id = some start →
        Ends (Engine.recordEnd n tick) ⟨e, j⟩
          (fun _ t => t.state = { e with
            workload := { e.workload with
              statistics := { e.workload.statistics with
                records := e.workload.statistics.records.insert n.id { r with finish := some tick }
                memory := some { m with opened := m.opened.erase n.id } } } })
          fun _ _ => False := by
  refine ⟨fun j j' => ?_, ?_⟩
  · have hrun := (fits_emptied lenient Analytical).mirrors_run (c := c)
      (fun _ _ n _ _ _ => congrArg _ n.nodeClass_emptied) j j'
    rw [← s.engine_emptied] at hrun
    refine hrun.imp (fun tick t hok => hok.imp ?_ fun _ _ hfalse => hfalse) fun stop t hstop =>
      (hstop.resolve_left id).imp (fun _ _ hfalse => hfalse) ?_
    · rintro tick' t' ⟨ht, htick⟩
      rw [ht]
      exact ⟨htick, Disguise.statistics_ofNodes _ _, rfl, rfl⟩
    · rintro stop' t' ⟨hsame, ht⟩
      rw [ht]
      exact ⟨hsame, Disguise.statistics_ofNodes _ _, rfl, rfl⟩
  · intro n e r m start tick j illegible hconfig hrecord hstart hkept hmemory hopen
    simp only [Engine.recordEnd, ends_bind, ends_outcome, Engine.onStatistics, ends_on]
    refine (Statistics.ends_recordEnd_illegible illegible hrecord hstart hkept hmemory hopen).imp
      (fun _ _ hfalse => hfalse.elim) ?_
    rintro _ t ⟨ht, x, rfl, hlocal⟩
    have hforgives (statistics : Statistics) :
        ({ e.workload with statistics } : Workload).forgives x = true :=
      Workload.forgives_of_lenient (hconfig ▸ lenient) hlocal
    simp only [Engine.workloadOf, ends_bind, ends_get, ends_pure, hforgives, ↓reduceIte, ends_note, ht]

/-- Two nodes read the same tensor.  The list of what the first one writes has no size, which turns up
after the other list was read. -/
@[irreducible] def slip : Setup :=
  .ofTrace { validation := .lenient, trackMemory := true } [
    { id := 1, name := "first", kind := .compute, dataDeps := [], ctrlDeps := []
      attributes := { runtime := some 3, inputs := some ["w", "8"], outputs := some ["x"] } },
    { id := 2, name := "second", kind := .compute, dataDeps := [1], ctrlDeps := []
      attributes := {
        runtime := some 2, isCpuOp := some false
        inputs := some ["w", "8"], outputs := some ["y", "4"] } }]

/-- Only the second one is recorded to have read it; where the first one ends its interval is closed. -/
theorem emptied_agrees_slip : slip.config.isStrict = false ∧ slip.config.trackMemory = true ∧
    (∃ t t', Replay.run ⟨slip.engine { config := {} }, #[]⟩ = .ok 5000 t ∧
      Replay.run ⟨slip.emptied.engine { config := {} }, #[]⟩ = .ok 5000 t' ∧
      t'.state.workload.statistics = t.state.workload.statistics ∧
      (t.state.workload.statistics.memory.map fun m => m.readsOf "w") = some [⟨3000, 5000, some 2⟩]) ∧
    ∃ n ∈ slip.trace, n.isLegible = false ∧ ∃ (e : Engine Analytical) (m : Tracker),
      e.workload.statistics.memory = some m ∧ m.opened.find? n.id = some 0 ∧
      Ends (Engine.recordEnd n 3000) ⟨e, #[]⟩
        (fun _ t => t.state.workload.statistics.memory =
          some { m with opened := m.opened.erase n.id }) fun _ _ => False := by
  have lenient : slip.config.isStrict = false := by decide +kernel
  have hruns : Ends Replay.run ⟨slip.engine { config := {} }, #[]⟩
      (fun tick t => tick = 5000 ∧ (t.state.workload.statistics.memory.map fun m => m.readsOf "w") =
        some [⟨3000, 5000, some 2⟩]) fun _ _ => False := by decide +kernel
  obtain ⟨hagrees, hcloses⟩ := emptied_agrees slip lenient {}
  refine ⟨lenient, by decide +kernel, ?_, ?_⟩
  · obtain ⟨tick, t, hrun, rfl, hreads⟩ := hruns.exists_ok
    obtain ⟨tick', t', hrun', rfl, hstatistics, -⟩ := ((hagrees #[] #[]).of_ok hrun).exists_ok
    exact ⟨t, t', hrun, hrun', hstatistics, hreads⟩
  · -- the engine after it has recorded the start of the first node
    let started : Statistics := slip.workload.statistics.recordStart 1 (.ofClass .cpuCompute) 0
    let e : Engine Analytical :=
      { workload := { slip.workload with statistics := started }, kernel := { config := {} } }
    have hn : (slip.trace.find? fun n => !n.isLegible && n.id = 1).isSome = true := by decide +kernel
    obtain ⟨n, hn⟩ := Option.isSome_iff_exists.1 hn
    obtain ⟨illegible, hid⟩ : n.isLegible = false ∧ n.id = 1 := by
      simpa using List.find?_some hn
    have hrecord : started.records.find? n.id =
        some { node := 1, operatorType := .ofClass .cpuCompute, start := 0 } := by
      rw [hid]
      exact SortedMap.find?_insert_self _ _ _
    obtain ⟨m, hmemory, hopen⟩ : ∃ m, started.memory = some m ∧ m.opened.find? n.id = some 0 := by
      have h : (started.memory.bind fun m => m.opened.find? 1) = some 0 := by decide +kernel
      rw [hid]
      exact Option.bind_eq_some_iff.1 h
    have hconfig : slip.workload.config = slip.config := by
      obtain ⟨-, group, hw⟩ := slip.created_iff
      rw [hw]
      rfl
    refine ⟨n, List.mem_of_find?_eq_some hn, illegible, e, m, hmemory, hopen, ?_⟩
    refine (hcloses n e _ m 0 3000 #[] illegible hconfig hrecord (Nat.zero_le _) (by decide) hmemory
      hopen).imp (fun _ t ht => ?_) fun _ _ hfalse => hfalse
    rw [ht]

end Setup

end TraceReplay
