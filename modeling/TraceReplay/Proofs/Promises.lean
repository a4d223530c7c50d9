/-
**Broken promises are unreachable.**

The engine and its bookkeeping fault where a promise is broken: a slot that is full or that nobody holds,
a token or handle that is not out, a handle that is out already, an event of the wrong kind, a second
release of the same children, a record that is missing or ends before it starts, traffic that has not
begun, an estimate for nothing.  Towards a kernel that keeps its own promises none of them is ever
broken, and no count of parents goes below zero.  This holds of every call of a run, those included that
come after a call that returned an error and left its work half done.

Main results:

* `Run.promises_kept` — a call in a run returns, or returns an error that says what is wrong with a node
  or with tensors, or stops because a counter leaves its range.
-/

import TraceReplay.Kernel.Scripted
import TraceReplay.Proofs.Engine.Returns
import TraceReplay.Proofs.Schedule

set_option relaxedAutoImplicit false
set_option autoImplicit false

namespace TraceReplay

open TraceReplay.Action

variable {κ : Type} [Kernel κ] {s : Setup} {calls : List Call} {event : Event}

/-- What is said of a node or of tensors says nothing about the engine. -/
theorem Setup.Complains.ne_internal {x : ReplayError} (h : s.Complains x) :
    (∀ reason, x ≠ .internal reason) ∧ ∀ id, x ≠ .unknownNode id := by
  refine ⟨fun reason hx => ?_, fun id hx => ?_⟩
  all_goals
    subst hx
    rcases h.isLocal_or_isTraffic with hlocal | htraffic
    · cases hlocal
    · cases htraffic

/-- The scripted kernel takes every request. -/
theorem Scripted.conforms : Kernel.Conforms Scripted where
  toSteady := Scripted.steady
  faults := by
    rintro k f (⟨token, operation, j, t, ht⟩ | ⟨gathering, j, t, ht⟩)
    · cases ht
    · obtain ⟨now, handles, numbered⟩ := k
      cases handles <;> cases ht

/-- **No promise is broken in a run**, whether or not earlier calls returned errors.  If the handles that
the kernel gives out are not out already, the next call stops with an error that is not about the engine
itself, or because a counter leaves its range. -/
theorem Run.promises_kept (conforms : Kernel.Conforms κ) {e : Engine κ} (run : Run s calls e) {k : κ}
    (later : Kernel.now e.kernel ≤ Kernel.now k)
    (allowed : event = .wake ∨ Outstanding (calls.map Call.event) e.asked event) (j : Array Entry) :
    Ends (Engine.call event) ⟨{ e with kernel := k }, j⟩ (fun _ _ => True) fun stop t =>
      MintsFresh (event :: calls.map Call.event) e.asked t.state.asked →
        (∃ f, stop = .fault f ∧ f.isOverflow = true) ∨
          ∃ x, stop = .error x ∧ (∀ reason, x ≠ .internal reason) ∧ ∀ id, x ≠ .unknownNode id := by
  refine ends_iff.2 ⟨fun _ _ _ => trivial, fun stop t hcall fresh => ?_⟩
  obtain ⟨m, rfl, h⟩ := run.atRest
  obtain ⟨x, rfl, hcomplains⟩ | hoverflow :=
    (h.later later).stops (m := { m with kernel := k }) conforms allowed hcall fresh
  · exact .inr ⟨x, rfl, hcomplains.ne_internal⟩
  · exact .inl hoverflow

/-- A computation, and one without a cost. -/
@[irreducible] def Setup.flawed : Setup :=
  .ofTrace {} [
    { id := 1, name := "compute", kind := .compute, dataDeps := [], ctrlDeps := []
      attributes := { runtime := some 3 } },
    { id := 2, name := "compute", kind := .compute, dataDeps := [], ctrlDeps := []
      attributes := { isCpuOp := some false } }]

/-- The first call of a flawed run returns an error.  The computation that it has asked for may come back
all the same, and no promise is broken then. -/
theorem Run.promises_kept_flawed : ∃ e : Engine Scripted,
    Run .flawed [⟨.wake, some (.missingAttribute 2 "runtime")⟩] e ∧
      Outstanding [.wake] e.asked (.nodeFinished ⟨0⟩) ∧
      Ends (Engine.call (.nodeFinished ⟨0⟩)) ⟨e, #[]⟩ (fun _ _ => True) fun stop t =>
        MintsFresh [.nodeFinished ⟨0⟩, .wake] e.asked t.state.asked →
          (∃ f, stop = .fault f ∧ f.isOverflow = true) ∨
            ∃ x, stop = .error x ∧ (∀ reason, x ≠ .internal reason) ∧ ∀ id, x ≠ .unknownNode id := by
  have hfails : Ends (Engine.call .wake) ⟨Setup.flawed.engine ({} : Scripted), #[]⟩ (fun _ _ => False)
      fun stop t => stop = .error (.missingAttribute 2 "runtime") ∧
        Outstanding [.wake] t.state.asked (.nodeFinished ⟨0⟩) := by decide +kernel
  obtain ⟨stop, t, hcall, rfl, hout⟩ := hfails.exists_error
  have start : Run .flawed [] (Setup.flawed.engine ({} : Scripted)) := .start _
  have run := start.fails (k := {}) (Nat.le_refl _) (.inl rfl) hcall
  exact ⟨t.state, run, hout,
    Run.promises_kept Scripted.conforms run (Nat.le_refl _) (.inr hout) #[]⟩

end TraceReplay
