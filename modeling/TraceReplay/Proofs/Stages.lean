/-
**The stages of a node.**

Whatever a kernel does and in whatever order completions arrive, every node of the trace is in exactly
one of four stages after each call.  Each stage is described by what all parts of the engine say about
the node: the graph, the counts of parents, the queue, the tokens and handles, the log of requests and
the records.

Main definitions:

* `Stage` — the four stages;
* `Engine.At` — what the parts of the engine say about a node at a stage.

Main results:

* `Run.existsUnique_stage` — **every node is at exactly one stage**.
-/

import Mathlib.Data.List.Nodup
import Mathlib.Logic.ExistsUnique
import TraceReplay.Kernel.Scripted
import TraceReplay.Proofs.Engine.Run

set_option relaxedAutoImplicit false
set_option autoImplicit false

namespace TraceReplay

variable {κ : Type}

/-! ### Stages -/

/-- How far a node has come. -/
inductive Stage where
  | waiting
  | ready
  | inFlight
  | completed
  deriving DecidableEq, Repr

namespace Engine

/-- Whether a node has been removed, has a record with an end, and has no token or handle out. -/
def completed (e : Engine κ) (id : NodeId) : Bool :=
  (e.workload.graph.lookup id).isNone && Record.ended e.workload.statistics.records id &&
    holders e.workload.inFlight e.workload.gatherings id = 0

/-- The number of distinct parents of a node that have not completed. -/
def missing (e : Engine κ) (n : Node) : Nat := n.distinctParents.countP fun p => !e.completed p

/-- What the parts of an engine say about a node at a stage. -/
def At (e : Engine κ) (n : Node) : Stage → Prop
  | .waiting =>
      e.workload.graph.unresolved.find? n.id = some (e.missing n) ∧ 0 < e.missing n ∧
        n.id ∉ e.workload.graph.ready ∧ e.workload.statistics.records.find? n.id = none
  | .ready =>
      e.workload.graph.ready.count n.id = 1 ∧ (∀ p ∈ n.parents, e.completed p = true) ∧
        e.workload.statistics.records.find? n.id = none
  | .inFlight =>
      requestsFor e.asked n.id = 1 ∧
        holders e.workload.inFlight e.workload.gatherings n.id = 1 ∧
        (∃ r, e.workload.statistics.records.find? n.id = some r ∧ r.finish = none) ∧
        e.workload.graph.lookup n.id = some n
  | .completed => e.completed n.id = true

/-- The stage that record and queue alone suggest. -/
def stage (e : Engine κ) (id : NodeId) : Stage :=
  match e.workload.statistics.records.find? id with
  | none => if id ∈ e.workload.graph.ready then .ready else .waiting
  | some r => if r.finish = none then .inFlight else .completed

/-- A node is at no other stage than the one that record and queue suggest. -/
theorem At.eq_stage {e : Engine κ} {n : Node} {a : Stage} (h : e.At n a) : a = e.stage n.id := by
  rw [stage]
  cases a with
  | waiting =>
      obtain ⟨-, -, hready, hnone⟩ := h
      simp only [hnone, hready, ↓reduceIte]
  | ready =>
      obtain ⟨hcount, -, hnone⟩ := h
      have hready : n.id ∈ e.workload.graph.ready := List.count_pos_iff.1 (by omega)
      simp only [hnone, hready, ↓reduceIte]
  | inFlight =>
      obtain ⟨-, -, ⟨r, hr, hfinish⟩, -⟩ := h
      simp only [hr, hfinish, ↓reduceIte]
  | completed =>
      have hcompleted : e.completed n.id = true := h
      simp only [completed, Bool.and_eq_true] at hcompleted
      obtain ⟨r, finish, hr, hfinish⟩ := Record.ended_iff.1 hcompleted.1.2
      simp only [hr, hfinish, reduceCtorEq, ↓reduceIte]

end Engine

/-! ### Runs without errors -/

section

variable [Kernel κ] {s : Setup} {calls : List Call} {m : Moment κ}

/-- In a run without errors the nodes that completed are those whose children have been told. -/
theorem AtRest.completed_iff (h : AtRest s calls m) (quiet : Quiet calls) (id : NodeId) :
    m.completed id = true ↔ id ∈ m.workload.graph.freed := by
  have hlookup := h.lookup_eq quiet id
  rw [h.freed_iff quiet id, Engine.completed]
  simp only [Bool.and_eq_true, decide_eq_true_eq]
  constructor
  · rintro ⟨⟨-, hended⟩, -⟩
    exact hended
  · intro hended
    have hrunning : Record.running m.workload.statistics.records id ≠ true := fun hrunning => by
      rw [Record.ended_of_running hrunning] at hended
      cases hended
    refine ⟨⟨?_, hended⟩, ?_⟩
    · rw [hlookup, if_pos hended]
      rfl
    · rw [h.coherent.custody.held id, if_neg hrunning]

/-- In a run without errors the parents that a node waits for are those that have not completed. -/
theorem AtRest.missing_eq (h : AtRest s calls m) (quiet : Quiet calls) (n : Node) :
    m.missing n = n.waitsFor m.workload.graph.freed := by
  refine List.countP_congr fun p _ => ?_
  have := h.completed_iff quiet p
  by_cases hp : p ∈ m.workload.graph.freed <;> simp [hp] at this ⊢ <;> simp [this]

/-- In a run without errors every node is at the stage that record and queue suggest. -/
theorem AtRest.at_stage (h : AtRest s calls m) (quiet : Quiet calls) {n : Node}
    (hn : s.graph.lookup n.id = some n) : m.At n (m.stage n.id) := by
  have hlifecycle := h.coherent.lifecycle
  have hcustody := h.coherent.custody
  have hqueued := h.ready_iff quiet n.id
  have hnodup := hlifecycle.nodup
  rw [(h.tidy quiet).1, List.append_nil] at hnodup
  rw [Engine.stage]
  cases hr : m.workload.statistics.records.find? n.id with
  | none =>
      by_cases hready : n.id ∈ m.workload.graph.ready
      · obtain ⟨⟨n', hn', hparents⟩, -⟩ := hqueued.1 hready
        cases hn.symm.trans hn'
        simp only [hready, ↓reduceIte]
        exact ⟨List.count_eq_one_of_mem hnodup hready,
          fun p hp => (h.completed_iff quiet p).2 (hparents p hp), hr⟩
      · simp only [hready, ↓reduceIte]
        -- a node that waits for none would be in the queue
        have hawaited : s.graph.awaited m.workload.graph.freed n.id =
            some (n.waitsFor m.workload.graph.freed) := by
          refine Graph.awaited_eq_some_iff.2 ⟨n, hn, rfl, Nat.pos_of_ne_zero fun hzero => hready ?_⟩
          exact hqueued.2 ⟨⟨n, hn, Node.waitsFor_eq_zero_iff.1 hzero⟩, hr⟩
        obtain ⟨-, -, -, hpos⟩ := Graph.awaited_eq_some_iff.1 hawaited
        rw [← h.missing_eq quiet] at hawaited hpos
        exact ⟨(hlifecycle.counts.unresolved n.id).trans hawaited, hpos, hready, hr⟩
  | some r =>
      cases hfinish : r.finish with
      | none =>
          have hrunning : Record.running m.workload.statistics.records n.id = true :=
            Record.running_iff.2 ⟨r, hr, hfinish⟩
          obtain ⟨n', hfound, hn'⟩ := h.coherent.present_of_running hrunning
          cases hn.symm.trans hn'
          -- it was not skipped, since skipped nodes end at once
          have hasked : Record.asked m.workload.statistics.records n.id = true := by
            simp [Record.asked, hr, hcustody.busy n.id r hr hfinish]
          simp only [hfinish, ↓reduceIte]
          exact ⟨by rw [hcustody.requested, if_pos hasked], by rw [hcustody.held, if_pos hrunning],
            ⟨r, hr, hfinish⟩, hfound⟩
      | some finish =>
          simp only [hfinish, reduceCtorEq, ↓reduceIte]
          refine (h.completed_iff quiet n.id).2 ((h.freed_iff quiet n.id).2 ?_)
          exact Record.ended_iff.2 ⟨r, finish, hr, hfinish⟩

/-- **Every node is at exactly one stage** after each call of a run without errors. -/
theorem Run.existsUnique_stage {e : Engine κ} (run : Run s calls e) (quiet : Quiet calls) {n : Node}
    (hn : n ∈ s.trace) : ∃! stage, e.At n stage := by
  obtain ⟨m, rfl, h⟩ := run.atRest
  have hlookup := (s.built.lookup_iff n.id n).2 ⟨hn, rfl⟩
  exact ⟨m.stage n.id, h.at_stage quiet hlookup, fun _ hat => hat.eq_stage⟩

end

/-- In the run of a computation and a transfer whose computation has come back. -/
theorem Run.existsUnique_stage_pair :
    ∃ e : Engine Scripted, Setup.pair.drive {} [(.nodeFinished ⟨0⟩, { now := 5 }), (.wake, {})] = some e ∧
      Setup.pair.trace.length = 2 ∧ ∀ n ∈ Setup.pair.trace, ∃! stage, e.At n stage := by
  have hdrive : (Setup.pair.drive ({} : Scripted)
      [(.nodeFinished ⟨0⟩, { now := 5 }), (.wake, {})]).isSome = true := by decide +kernel
  obtain ⟨e, he⟩ := Option.isSome_iff_exists.1 hdrive
  refine ⟨e, he, rfl, fun n hn => ?_⟩
  exact Run.existsUnique_stage (.of_drive he) (by simp [Quiet]) hn

end TraceReplay
