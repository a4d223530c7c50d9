/-
**What an action comes to.**

An action either gives a value or stops, and leaves a state and a journal in both cases.  This module
turns a statement about the end of a composed action into statements about its parts: the lemmas
below rewrite `Action.Ends`, so that `simp` runs an action symbolically and leaves one goal for each
way in which it can come out.

Main definitions:

* `Action.Ends` — an action comes to a value and a state with one property, or stops with a reason and
  a state with another.

Main results:

* `Action.ends_bind` — an action followed by another ends as the second does from wherever the first
  left off;
* `Action.ends_on`, `Action.ends_stopAs`, `Action.ends_outcome` — actions on a part of the state, and
  actions whose reason to stop is changed or kept as a value;
* `Action.Ends.imp` — properties may be weakened;
* `Action.Ends.exists_ok`, `Action.Ends.exists_error` — an action that cannot stop returns, and one that
  cannot return stops.
-/

import TraceReplay.Action
import TraceReplay.Error

set_option relaxedAutoImplicit false
set_option autoImplicit false

namespace TraceReplay

namespace Action

variable {ε ε' σ τ α β : Type}

/-- From `s` the action gives a value and a state that satisfy `Q`, or it stops with a reason and a
state that satisfy `E`. -/
def Ends (act : Action ε σ α) (s : Logged σ) (Q : α → Logged σ → Prop)
    (E : ε → Logged σ → Prop) : Prop :=
  match act s with
  | .ok a t => Q a t
  | .error e t => E e t

variable {s t : Logged σ} {Q Q' : α → Logged σ → Prop} {E E' : ε → Logged σ → Prop}

/-! ### From and to outcomes -/

theorem Ends.of_ok {act : Action ε σ α} {a : α} (h : Ends act s Q E) (hr : act s = .ok a t) :
    Q a t := by
  rwa [Ends, hr] at h

theorem Ends.of_error {act : Action ε σ α} {e : ε} (h : Ends act s Q E)
    (hr : act s = .error e t) : E e t := by
  rwa [Ends, hr] at h

/-- What an action comes to, said of all its outcomes at once. -/
theorem ends_iff {act : Action ε σ α} :
    Ends act s Q E ↔ (∀ a t, act s = .ok a t → Q a t) ∧ ∀ e t, act s = .error e t → E e t := by
  constructor
  · intro h
    exact ⟨fun a t hr => h.of_ok hr, fun e t hr => h.of_error hr⟩
  · rintro ⟨hQ, hE⟩
    rw [Ends]
    cases hr : act s with
    | ok a t => exact hQ a t hr
    | error e t => exact hE e t hr

theorem Ends.imp {act : Action ε σ α} (h : Ends act s Q E) (hQ : ∀ a t, Q a t → Q' a t)
    (hE : ∀ e t, E e t → E' e t) : Ends act s Q' E' :=
  ends_iff.2 ⟨fun a t hr => hQ a t (h.of_ok hr), fun e t hr => hE e t (h.of_error hr)⟩

/-- What is known of the same action for two reasons. -/
theorem Ends.and {act : Action ε σ α} (h : Ends act s Q E) (h' : Ends act s Q' E') :
    Ends act s (fun a t => Q a t ∧ Q' a t) fun e t => E e t ∧ E' e t :=
  ends_iff.2 ⟨fun _ _ hr => ⟨h.of_ok hr, h'.of_ok hr⟩, fun _ _ hr => ⟨h.of_error hr, h'.of_error hr⟩⟩

/-- An action has an outcome. -/
theorem Ends.outcome {act : Action ε σ α} (h : Ends act s Q E) :
    (∃ a t, act s = .ok a t ∧ Q a t) ∨ ∃ e t, act s = .error e t ∧ E e t := by
  cases hr : act s with
  | ok a t => exact .inl ⟨a, t, rfl, h.of_ok hr⟩
  | error e t => exact .inr ⟨e, t, rfl, h.of_error hr⟩

/-- An action that cannot stop returns, -/
theorem Ends.exists_ok {act : Action ε σ α} (h : Ends act s Q fun _ _ => False) :
    ∃ a t, act s = .ok a t ∧ Q a t :=
  h.outcome.resolve_right fun ⟨_, _, _, hfalse⟩ => hfalse

/-- and one that cannot return stops. -/
theorem Ends.exists_error {act : Action ε σ α} (h : Ends act s (fun _ _ => False) E) :
    ∃ e t, act s = .error e t ∧ E e t :=
  h.outcome.resolve_left fun ⟨_, _, _, hfalse⟩ => hfalse

instance {act : Action ε σ α} [∀ a t, Decidable (Q a t)] [∀ e t, Decidable (E e t)] :
    Decidable (Ends act s Q E) :=
  match hr : act s with
  | .ok a t => decidable_of_iff (Q a t) (by rw [Ends, hr])
  | .error e t => decidable_of_iff (E e t) (by rw [Ends, hr])

/-! ### Composition -/

@[simp] theorem ends_pure (a : α) : Ends (pure a : Action ε σ α) s Q E ↔ Q a s := Iff.rfl

@[simp] theorem ends_throw (e : ε) : Ends (throw e : Action ε σ α) s Q E ↔ E e s := Iff.rfl

@[simp] theorem ends_bind (x : Action ε σ β) (f : β → Action ε σ α) :
    Ends (x >>= f) s Q E ↔ Ends x s (fun b t => Ends (f b) t Q E) E := by
  simp only [Ends, bind, EStateM.bind]
  cases x s <;> rfl

@[simp] theorem ends_ite (c : Prop) [Decidable c] (x y : Action ε σ α) :
    Ends (if c then x else y) s Q E ↔ (c → Ends x s Q E) ∧ (¬c → Ends y s Q E) := by
  by_cases h : c <;> simp [h]

/-- What follows an action need only agree on what the action comes to. -/
theorem bind_congr {x : Action ε σ β} {f g : β → Action ε σ α}
    (h : ∀ b t, x s = .ok b t → f b t = g b t) : (x >>= f) s = (x >>= g) s := by
  simp only [bind, EStateM.bind]
  cases hx : x s with
  | ok b t => exact h b t hx
  | error e t => rfl

/-! ### State, journal and calculations -/

@[simp] theorem ends_get {Q : σ → Logged σ → Prop} :
    Ends (get : Action ε σ σ) s Q E ↔ Q s.state s := Iff.rfl

@[simp] theorem ends_note {Q : Unit → Logged σ → Prop} (e : Entry) :
    Ends (note e : Action ε σ Unit) s Q E ↔ Q () ⟨s.state, s.journal.push e⟩ := Iff.rfl

@[simp] theorem ends_put {Q : Unit → Logged σ → Prop} (a : σ) :
    Ends (put a : Action ε σ Unit) s Q E ↔ Q () ⟨a, s.journal⟩ := Iff.rfl

@[simp] theorem ends_update {Q : Unit → Logged σ → Prop} (f : σ → σ) :
    Ends (update f : Action ε σ Unit) s Q E ↔ Q () ⟨f s.state, s.journal⟩ := Iff.rfl

@[simp] theorem ends_lift_ok (a : α) : Ends (lift (.ok a) : Action ε σ α) s Q E ↔ Q a s := Iff.rfl

@[simp] theorem ends_lift_error (e : ε) :
    Ends (lift (.error e) : Action ε σ α) s Q E ↔ E e s := Iff.rfl

@[simp] theorem ends_lift_orFault_ok {E : Stop → Logged σ → Prop} (a : α) :
    Ends (lift (orFault (.ok a)) : Action Stop σ α) s Q E ↔ Q a s := Iff.rfl

@[simp] theorem ends_lift_orFault_error {E : Stop → Logged σ → Prop} (f : Fault) :
    Ends (lift (orFault (.error f)) : Action Stop σ α) s Q E ↔ E (.fault f) s := Iff.rfl

theorem ends_forM_note {Q : Unit → Logged σ → Prop} {a : σ} (entries : List Entry) :
    ∀ {j : Array Entry}, (∀ j', Q () ⟨a, j'⟩) →
      Ends (entries.forM note : Action ε σ Unit) ⟨a, j⟩ Q E := by
  induction entries with
  | nil => intro j h; exact h j
  | cons entry entries ih =>
      intro j h
      show Ends (note entry >>= fun _ => entries.forM note) ⟨a, j⟩ Q E
      rw [ends_bind]
      exact ih h

/-- What every action of a list keeps, they keep together. -/
theorem ends_forM {act : β → Action ε σ Unit} {P : Logged σ → Prop}
    (h : ∀ b s, P s → Ends (act b) s (fun _ t => P t) E) : ∀ (bs : List β) {s : Logged σ}, P s →
      Ends (bs.forM act) s (fun _ t => P t) E := by
  intro bs
  induction bs with
  | nil => exact fun hs => hs
  | cons b bs ih =>
      intro s hs
      show Ends (act b >>= fun _ => bs.forM act) s _ _
      rw [ends_bind]
      exact (h b s hs).imp (fun _ _ => ih) fun _ _ h => h

/-- The last action of a list follows the others. -/
theorem ends_forM_snoc {act : β → Action ε σ Unit} {Q : Unit → Logged σ → Prop} (b : β) :
    ∀ (bs : List β) {s : Logged σ}, Ends ((bs ++ [b]).forM act) s Q E ↔
      Ends (bs.forM act) s (fun _ t => Ends (act b) t Q E) E
  | [], s => by
      show Ends (act b >>= fun _ => pure ()) s Q E ↔ Ends (act b) s Q E
      rw [ends_bind]
      rfl
  | b' :: bs, s => by
      show Ends (act b' >>= fun _ => (bs ++ [b]).forM act) s Q E ↔
        Ends (act b' >>= fun _ => bs.forM act) s _ E
      simp only [ends_bind, ends_forM_snoc b bs]

/-! ### Parts and reasons -/

@[simp] theorem ends_on (part : σ → τ) (replace : τ → σ → σ) (act : Action ε τ α) :
    Ends (act.on part replace) s Q E ↔
      Ends act ⟨part s.state, s.journal⟩ (fun a t => Q a ⟨replace t.state s.state, t.journal⟩)
        fun e t => E e ⟨replace t.state s.state, t.journal⟩ := by
  simp only [Ends, on]
  cases act ⟨part s.state, s.journal⟩ <;> rfl

@[simp] theorem ends_stopAs {E : ε' → Logged σ → Prop} (f : ε → ε') (act : Action ε σ α) :
    Ends (act.stopAs f) s Q E ↔ Ends act s Q fun e t => E (f e) t := by
  simp only [Ends, stopAs]
  cases act s <;> rfl

@[simp] theorem ends_outcome {Q : Except ε α → Logged σ → Prop} {E : ε' → Logged σ → Prop}
    (act : Action ε σ α) :
    Ends (act.outcome : Action ε' σ (Except ε α)) s Q E ↔
      Ends act s (fun a t => Q (.ok a) t) fun e t => Q (.error e) t := by
  simp only [Ends, outcome]
  cases act s <;> rfl

end Action

end TraceReplay
