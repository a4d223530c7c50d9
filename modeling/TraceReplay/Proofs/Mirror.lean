/-
**Two actions side by side.**

Two runs that differ in their input only are compared step by step.  One action *mirrors* another
through a map of states if from the image of a state it comes to what the other comes to from the state:
a related value, or the same reason to stop, and the image of the state that the other leaves.  Journals
may differ.  Some reasons to stop can be excused: where the first action stops for one of them nothing is
said of the second.

Main definitions:

* `Action.Mirrors` — an action mirrors another through a map of states;
* `Action.Blind` — an action mirrors itself: what it does does not depend on the journal.

Main results:

* `Action.mirrors_bind` — two actions mirror each other step by step;
* `Action.mirrors_on`, `Action.mirrors_stopAs` — actions on a part of the state, and actions whose
  reason to stop is changed;
* `Action.Mirrors.of_ok`, `Action.Mirrors.of_error` — what the outcome of one says about that of the
  other.
-/

import TraceReplay.Proofs.Action

set_option relaxedAutoImplicit false
set_option autoImplicit false

namespace TraceReplay

namespace Action

variable {ε ε' σ σ' τ τ' α α' β β' : Type}

/-- From `f a` the second action comes to what the first comes to from `a`: values that satisfy `Q` with
the state that the first leaves, or the same reason to stop; and it leaves the image of that state. -/
def Mirrors (f : σ → σ') (excused : ε → Prop) (act : Action ε σ α) (act' : Action ε σ' α') (a : σ)
    (Q : α → α' → σ → Prop) : Prop :=
  ∀ j j', Ends act ⟨a, j⟩
    (fun b t => Ends act' ⟨f a, j'⟩ (fun b' t' => t'.state = f t.state ∧ Q b b' t.state)
      fun _ _ => False)
    fun e t => excused e ∨
      Ends act' ⟨f a, j'⟩ (fun _ _ => False) fun e' t' => e' = e ∧ t'.state = f t.state

variable {f : σ → σ'} {excused : ε → Prop} {act : Action ε σ α} {act' : Action ε σ' α'} {a : σ}
variable {Q Q' : α → α' → σ → Prop}

/-! ### From and to outcomes -/

theorem Mirrors.of_ok (h : Mirrors f excused act act' a Q) {j : Array Entry} {b : α} {t : Logged σ}
    (hr : act ⟨a, j⟩ = .ok b t) (j' : Array Entry) :
    ∃ b' t', act' ⟨f a, j'⟩ = .ok b' t' ∧ t'.state = f t.state ∧ Q b b' t.state :=
  ((h j j').of_ok hr).exists_ok

theorem Mirrors.of_error (h : Mirrors f excused act act' a Q) {j : Array Entry} {e : ε}
    {t : Logged σ} (hr : act ⟨a, j⟩ = .error e t) (j' : Array Entry) :
    excused e ∨ ∃ t', act' ⟨f a, j'⟩ = .error e t' ∧ t'.state = f t.state := by
  refine ((h j j').of_error hr).imp_right fun hmirror => ?_
  obtain ⟨e', t', hr', rfl, ht⟩ := hmirror.exists_error
  exact ⟨t', hr', ht⟩

/-- What two actions have to come to, outcome by outcome. -/
theorem mirrors_of_outcomes
    (ok : ∀ j j' b t, act ⟨a, j⟩ = .ok b t →
      ∃ b' t', act' ⟨f a, j'⟩ = .ok b' t' ∧ t'.state = f t.state ∧ Q b b' t.state)
    (error : ∀ j j' e t, act ⟨a, j⟩ = .error e t →
      excused e ∨ ∃ t', act' ⟨f a, j'⟩ = .error e t' ∧ t'.state = f t.state) :
    Mirrors f excused act act' a Q := by
  refine fun j j' => ends_iff.2 ⟨fun b t hr => ?_, fun e t hr => ?_⟩
  · obtain ⟨b', t', hr', ht⟩ := ok j j' b t hr
    rw [Ends, hr']
    exact ht
  · refine (error j j' e t hr).imp_right ?_
    rintro ⟨t', hr', ht⟩
    rw [Ends, hr']
    exact ⟨rfl, ht⟩

theorem Mirrors.imp (h : Mirrors f excused act act' a Q) (hQ : ∀ b b' a', Q b b' a' → Q' b b' a') :
    Mirrors f excused act act' a Q' := fun j j' =>
  (h j j').imp
    (fun _ _ hok => hok.imp (fun _ _ hok => ⟨hok.1, hQ _ _ _ hok.2⟩) fun _ _ hfalse => hfalse)
    fun _ _ hstop => hstop

/-- What is known of the first action may be used. -/
theorem Mirrors.and (h : Mirrors f excused act act' a Q) {P : α → Logged σ → Prop}
    {E : ε → Logged σ → Prop} (hP : ∀ j, Ends act ⟨a, j⟩ P E) :
    Mirrors f excused act act' a fun b b' a' => Q b b' a' ∧ ∃ j, P b ⟨a', j⟩ := by
  refine mirrors_of_outcomes (fun j j' b t hr => ?_) fun j j' e t hr => h.of_error hr j'
  obtain ⟨b', t', hr', ht, hQ⟩ := h.of_ok hr j'
  exact ⟨b', t', hr', ht, hQ, t.journal, (hP j).of_ok hr⟩

/-! ### Composition -/

theorem mirrors_pure {b : α} {b' : α'} (h : Q b b' a) :
    Mirrors f excused (pure b) (pure b') a Q := fun _ _ => ⟨rfl, h⟩

theorem mirrors_throw (e : ε) :
    Mirrors f excused (throw e : Action ε σ α) (throw e : Action ε σ' α') a Q :=
  fun _ _ => .inr ⟨rfl, rfl⟩

/-- Of a reason to stop that is excused nothing is said. -/
theorem mirrors_throw_excused {e : ε} (h : excused e) :
    Mirrors f excused (throw e : Action ε σ α) act' a Q := fun _ _ => .inl h

/-- **Two actions mirror each other step by step.** -/
theorem mirrors_bind {x : Action ε σ β} {x' : Action ε σ' β'} {g : β → Action ε σ α}
    {g' : β' → Action ε σ' α'}
    (h : Mirrors f excused x x' a fun b b' a' => Mirrors f excused (g b) (g' b') a' Q) :
    Mirrors f excused (x >>= g) (x' >>= g') a Q := by
  refine fun j j' => (ends_bind x g).2 ((h j j').imp ?_ ?_)
  · intro b t hx
    obtain ⟨b', ⟨a', j''⟩, hr', ht, hg⟩ := hx.exists_ok
    cases ht
    refine (hg t.journal j'').imp ?_ ?_
    · intro c u hok
      rw [ends_bind, Ends, hr']
      exact hok
    · intro e u hstop
      refine hstop.imp_right fun hstop => ?_
      rw [ends_bind, Ends, hr']
      exact hstop
  · intro e t hx
    refine hx.imp_right fun hx => ?_
    rw [ends_bind]
    exact hx.imp (fun _ _ hfalse => hfalse.elim) fun _ _ hstop => hstop

theorem mirrors_ite {c c' : Prop} [Decidable c] [Decidable c'] (hc : c' ↔ c) {x y : Action ε σ α}
    {x' y' : Action ε σ' α'} (hx : c → Mirrors f excused x x' a Q)
    (hy : ¬c → Mirrors f excused y y' a Q) :
    Mirrors f excused (if c then x else y) (if c' then x' else y') a Q := by
  by_cases h : c
  · rw [if_pos h, if_pos (hc.2 h)]
    exact hx h
  · rw [if_neg h, if_neg fun h' => h (hc.1 h')]
    exact hy h

/-! ### State, journal and calculations -/

theorem mirrors_get {Q : σ → σ' → σ → Prop} (h : Q a (f a) a) : Mirrors f excused get get a Q :=
  fun _ _ => ⟨rfl, h⟩

theorem mirrors_update {Q : Unit → Unit → σ → Prop} {g : σ → σ} {g' : σ' → σ'}
    (hg : g' (f a) = f (g a)) (h : Q () () (g a)) :
    Mirrors f excused (update g) (update g') a Q := fun _ _ => ⟨hg, h⟩

theorem mirrors_put {Q : Unit → Unit → σ → Prop} {b : σ} {b' : σ'} (hb : b' = f b) (h : Q () () b) :
    Mirrors f excused (put b) (put b') a Q := fun _ _ => ⟨hb, h⟩

theorem mirrors_note {Q : Unit → Unit → σ → Prop} {e e' : Entry} (h : Q () () a) :
    Mirrors f excused (note e) (note e') a Q := fun _ _ => ⟨rfl, h⟩

theorem mirrors_lift {Q : α → α → σ → Prop} {x : Except ε α} (h : ∀ b, x = .ok b → Q b b a) :
    Mirrors f excused (lift x) (lift x) a Q := by
  cases x with
  | ok b => exact mirrors_pure (h b rfl)
  | error e => exact mirrors_throw e

/-! ### Parts and reasons -/

theorem mirrors_on {part : σ → τ} {replace : τ → σ → σ} {part' : σ' → τ'} {replace' : τ' → σ' → σ'}
    {g : τ → τ'} {act : Action ε τ α} {act' : Action ε τ' α'} (hpart : part' (f a) = g (part a))
    (hreplace : ∀ t, replace' (g t) (f a) = f (replace t a))
    (h : Mirrors g excused act act' (part a) fun b b' t => Q b b' (replace t a)) :
    Mirrors f excused (act.on part replace) (act'.on part' replace') a Q := by
  intro j j'
  simp only [ends_on, hpart]
  refine (h j j').imp (fun b t hok => hok.imp ?_ fun _ _ hfalse => hfalse) fun e t hstop =>
    hstop.imp_right fun hstop => hstop.imp (fun _ _ hfalse => hfalse) ?_
  · rintro b' t' ⟨ht, hQ⟩
    exact ⟨by rw [ht, hreplace], hQ⟩
  · rintro e' t' ⟨he, ht⟩
    exact ⟨he, by rw [ht, hreplace]⟩

theorem mirrors_stopAs {excused : ε' → Prop} {g : ε → ε'} {act : Action ε σ α}
    {act' : Action ε σ' α'} (h : Mirrors f (fun e => excused (g e)) act act' a Q) :
    Mirrors f excused (act.stopAs g) (act'.stopAs g) a Q := by
  intro j j'
  simp only [ends_stopAs]
  refine (h j j').imp (fun _ _ hok => hok) fun e t hstop => hstop.imp_right fun hstop =>
    hstop.imp (fun _ _ hfalse => hfalse) ?_
  rintro _ t' ⟨rfl, ht⟩
  exact ⟨rfl, ht⟩

/-- An action whose outcome is a value mirrors another if its reasons to stop need no excuse. -/
theorem mirrors_outcome {excused : ε' → Prop} {Q : Except ε α → Except ε α' → σ → Prop}
    (h : Mirrors f (fun _ : ε => False) act act' a fun b b' => Q (.ok b) (.ok b'))
    (hstop : ∀ j, Ends act ⟨a, j⟩ (fun _ _ => True) fun e t => Q (.error e) (.error e) t.state) :
    Mirrors f excused (act.outcome : Action ε' σ (Except ε α)) act'.outcome a Q := by
  intro j j'
  simp only [ends_outcome]
  refine ends_iff.2 ⟨fun b t hr => ?_, fun e t hr => ?_⟩
  · exact ((h j j').of_ok hr).imp (fun _ _ hok => hok) fun _ _ hfalse => hfalse.elim
  · obtain hfalse | hmirror := (h j j').of_error hr
    · exact hfalse.elim
    · refine hmirror.imp (fun _ _ hfalse => hfalse.elim) ?_
      rintro _ t' ⟨rfl, ht⟩
      exact ⟨ht, (hstop j).of_error hr⟩

/-! ### Actions that do not look at the journal -/

/-- What an action does does not depend on the journal. -/
def Blind (act : Action ε σ α) : Prop :=
  ∀ a, Mirrors id (fun _ => False) act act a fun b b' _ => b' = b

/-- Such an action mirrors itself through every map that is the identity there. -/
theorem Blind.mirrors {act : Action ε σ α} (h : Blind act) (a : σ) :
    Mirrors id excused act act a fun b b' _ => b' = b := fun j j' =>
  (h a j j').imp (fun _ _ hok => hok) fun _ _ hstop => .inr (hstop.resolve_left id)

namespace Blind

theorem pure (b : α) : Blind (Pure.pure b : Action ε σ α) := fun _ => mirrors_pure rfl

theorem throw (e : ε) : Blind (MonadExcept.throw e : Action ε σ α) := fun _ => mirrors_throw e

theorem throw_bind (e : ε) (g : β → Action ε σ α) : Blind (MonadExcept.throw e >>= g) :=
  fun _ => mirrors_bind (mirrors_throw e)

theorem bind {x : Action ε σ β} {g : β → Action ε σ α} (hx : Blind x) (hg : ∀ b, Blind (g b)) :
    Blind (x >>= g) := fun a =>
  mirrors_bind ((hx a).imp fun b b' a' hb => by rw [hb]; exact hg b a')

theorem get_bind {g : σ → Action ε σ α} (hg : ∀ a, Blind (g a)) : Blind (Action.get >>= g) :=
  fun a => mirrors_bind (mirrors_get (hg a a))

theorem put (a : σ) : Blind (Action.put a : Action ε σ Unit) := fun _ _ _ => ⟨rfl, rfl⟩

theorem update (g : σ → σ) : Blind (Action.update g : Action ε σ Unit) :=
  fun _ => mirrors_update rfl rfl

theorem note (e : Entry) : Blind (Action.note e : Action ε σ Unit) := fun _ => mirrors_note rfl

theorem lift (x : Except ε α) : Blind (Action.lift x : Action ε σ α) :=
  fun _ => mirrors_lift fun _ _ => rfl

theorem ite {c : Prop} [Decidable c] {x y : Action ε σ α} (hx : Blind x) (hy : Blind y) :
    Blind (if c then x else y) := fun a => mirrors_ite Iff.rfl (fun _ => hx a) fun _ => hy a

theorem forM {g : β → Action ε σ Unit} (hg : ∀ b, Blind (g b)) : ∀ l : List β, Blind (l.forM g)
  | [] => pure ()
  | b :: l => (hg b).bind fun _ => forM hg l

theorem on {part : σ → τ} {replace : τ → σ → σ} {act : Action ε τ α} (h : Blind act) :
    Blind (act.on part replace) := fun a => mirrors_on rfl (fun _ => rfl) (h (part a))

theorem stopAs {g : ε → ε'} {act : Action ε σ α} (h : Blind act) : Blind (act.stopAs g) :=
  fun a => mirrors_stopAs (h a)

end Blind

end Action

end TraceReplay
