/-
**Actions on a state.**

Every part of the engine works on a state of its own and writes to the journal; what it does may be
cut short.  State and journal survive that: whatever was done before an action stopped stays done.

Main definitions:

* `Logged` — a state together with the journal;
* `Action` — actions that may stop with a value of a given type;
* `Action.note`, `Action.get`, `Action.put`, `Action.update` — writing to the journal, and the state;
* `Action.lift` — a calculation that may stop;
* `Action.on` — an action on one part of a larger state;
* `Action.stopAs` — the same action with another account of why it stopped.
-/

import TraceReplay.Journal

set_option relaxedAutoImplicit false
set_option autoImplicit false

namespace TraceReplay

/-- A state together with the journal. -/
structure Logged (σ : Type) where
  state : σ
  journal : Array Entry

/-- An action on a state of type `σ` that gives an `α` or stops with an `ε`. -/
abbrev Action (ε σ α : Type) := EStateM ε (Logged σ) α

namespace Action

variable {ε ε' σ τ α : Type}

/-- Writes an entry to the journal. -/
def note (e : Entry) : Action ε σ Unit := modify fun s => { s with journal := s.journal.push e }

/-- The state. -/
def get : Action ε σ σ := do return (← MonadState.get).state

/-- Replaces the state. -/
def put (state : σ) : Action ε σ Unit := modify fun s => { s with state }

/-- Changes the state. -/
def update (f : σ → σ) : Action ε σ Unit := modify fun s => { s with state := f s.state }

/-- A calculation that may stop. -/
def lift : Except ε α → Action ε σ α
  | .ok a => pure a
  | .error e => throw e

/-- An action on one part of a larger state. -/
def on (part : σ → τ) (replace : τ → σ → σ) (act : Action ε τ α) : Action ε σ α := fun s =>
  match act ⟨part s.state, s.journal⟩ with
  | .ok a t => .ok a ⟨replace t.state s.state, t.journal⟩
  | .error e t => .error e ⟨replace t.state s.state, t.journal⟩

/-- The same action with another account of why it stopped. -/
def stopAs (f : ε → ε') (act : Action ε σ α) : Action ε' σ α := fun s =>
  match act s with
  | .ok a t => .ok a t
  | .error e t => .error (f e) t

/-- The same action, with its outcome as a value; it never stops. -/
def outcome (act : Action ε σ α) : Action ε' σ (Except ε α) := fun s =>
  match act s with
  | .ok a t => .ok (.ok a) t
  | .error e t => .ok (.error e) t

end Action

end TraceReplay
