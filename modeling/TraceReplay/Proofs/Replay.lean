/-
**Whole runs end.**

Handed the events of the analytical kernel one by one, the engine comes to rest.  Every event uses up one
that was pending or a node that was queued or waiting, so the number of events to come is bounded.  A
whole run therefore ends in one of three ways: a counter leaves its range, all nodes have ended, or the
nodes that are left are stuck.

Main definitions:

* `Moment.load` — the bound on the events to come, within a call.

Main results:

* `Replay.bound_call_le` — no call raises the bound;
* `Replay.finishWithin_eq` — the loop ends before its fuel does;
* `Replay.ends_run` — how a whole run ends;
* `Setup.deadlock_free` — **runs come to rest only when they have done all that can be done**.
-/

import TraceReplay.Replay
import TraceReplay.Proofs.Kernel.Analytical
import TraceReplay.Proofs.Stall

set_option relaxedAutoImplicit false
set_option autoImplicit false

namespace TraceReplay

open Relation
open TraceReplay.Action

/-! ### The bound -/

/-- The bound on the events to come, within a call. -/
def Moment.load (m : Moment Analytical) : Nat :=
  m.workload.graph.work + m.aside.length + m.kernel.pending

/-- No move raises the bound. -/
theorem Move.load_le {m m' : Moment Analytical} (h : Move m m') : m'.load ≤ m.load := by
  cases h with
  | wake => exact Nat.le_refl _
  | offer hm =>
      have hwork := Engine.work_offer hm
      cases hm with
      | block =>
          simp only [Moment.load, List.length_append, List.length_singleton] at hwork ⊢
          omega
      | skip =>
          simp only [Moment.load] at hwork ⊢
          omega
      | start front room planned starts takes =>
          simp only [Moment.load, Analytical.pending_of_takes takes] at hwork ⊢
          omega
      | gather front room planned gathers gives =>
          simp only [Moment.load, Analytical.pending_of_gives gives] at hwork ⊢
          omega
  | leave queue =>
      have := Engine.work_withReady queue
      simp only [Moment.load, List.length_append, List.length_singleton] at this ⊢
      omega
  | handBack hm =>
      obtain ⟨split⟩ := hm
      simp only [Moment.load, Workload.withReady, Graph.work, split, List.length_append]
      omega
  | close hm =>
      obtain ⟨arrives, -, -⟩ := hm
      cases arrives <;> exact Nat.le_refl _
  | drop hm => cases hm; exact Nat.le_refl _
  | free hm =>
      obtain ⟨-, -, freed⟩ := hm
      simp only [Moment.load, Graph.work_freeDependents freed]
      exact Nat.le_refl _
  | remove hm =>
      cases hm
      simp only [Moment.load, Graph.work_remove]
      exact Nat.le_refl _
  | settle hm => cases hm <;> exact Nat.le_refl _

theorem Move.load_le_many {m m' : Moment Analytical} (h : ReflTransGen Move m m') :
    m'.load ≤ m.load := by
  induction h with
  | refl => exact Nat.le_refl _
  | tail _ hm ih => exact Nat.le_trans hm.load_le ih

namespace Replay

/-- **No call raises the bound.** -/
theorem bound_call_le {e : Engine Analytical} {event : Event} {j : Array Entry}
    {t : Logged (Engine Analytical)} (h : Engine.call event ⟨e, j⟩ = .ok () t) :
    bound t.state ≤ bound e := by
  let m : Moment Analytical :=
    { toEngine := e, delivered := [], aside := [], unfreed := [], lingering := [] }
  obtain ⟨m', hmoves, ht⟩ := Engine.moves_of_ok (m := m) h
  have hload := Move.load_le_many hmoves
  rw [← ht]
  simp only [Moment.load, bound, m, List.length_nil] at hload ⊢
  omega

/-- Every event lowers the bound. -/
theorem bound_step_lt {e : Engine Analytical} {j : Array Entry} {event : Tick × Event}
    {t : Logged (Engine Analytical)} (h : step ⟨e, j⟩ = .ok (some event) t) :
    bound t.state < bound e := by
  suffices hs : Ends step ⟨e, j⟩ (fun event t => event.isSome = true → bound t.state < bound e)
      fun _ _ => True from hs.of_ok h rfl
  simp only [step, ends_bind, ends_get]
  cases hnext : e.kernel.next? with
  | none => exact fun hsome => by cases hsome
  | some next =>
      obtain ⟨event, k⟩ := next
      have hpending := Analytical.pending_of_next hnext
      simp only [ends_update, ends_bind]
      refine ends_iff.2 ⟨fun _ t hcall _ => Nat.lt_of_le_of_lt (bound_call_le hcall) ?_,
        fun _ _ _ => trivial⟩
      simp only [bound]
      omega

/-- **The loop ends before its fuel does**: more fuel changes nothing. -/
theorem finishWithin_eq {fuel : Nat} : ∀ {fuel' : Nat} {e : Engine Analytical} {j : Array Entry},
    bound e < fuel → bound e < fuel' → finishWithin fuel ⟨e, j⟩ = finishWithin fuel' ⟨e, j⟩ := by
  induction fuel with
  | zero => exact fun hfuel => absurd hfuel (Nat.not_lt_zero _)
  | succ fuel ih =>
      intro fuel' e j hfuel hfuel'
      cases fuel' with
      | zero => exact absurd hfuel' (Nat.not_lt_zero _)
      | succ fuel' =>
          refine bind_congr fun _ _ hget => ?_
          cases hget
          by_cases hfinished : e.workload.isFinished = true
          · simp only [hfinished, ↓reduceIte]
          · simp only [hfinished]
            refine bind_congr fun event t hstep => ?_
            cases event with
            | none => rfl
            | some event =>
                have hlt := bound_step_lt hstep
                exact ih (j := t.journal) (by omega) (by omega)

/-! ### The loop -/

variable {s : Setup} {calls : List Call} {e : Engine Analytical} {j : Array Entry}

/-- How a call ends to which the analytical kernel hands an event: the run goes on, with no more events
to come than before, or a counter has left its range. -/
theorem ends_call (untracked : s.config.trackMemory = false) (plannable : s.Plannable)
    (run : Run s calls e) {k : Analytical} (later : e.kernel.now ≤ k.now) {event : Event}
    (allowed : event = .wake ∨ Outstanding (calls.map Call.event) e.asked event)
    (prepared : Prepared k e.asked (event :: calls.map Call.event)) :
    Ends (Engine.call event) ⟨{ e with kernel := k }, j⟩
      (fun _ t => Run s (⟨event, none⟩ :: calls) t.state ∧
        Prepared t.state.kernel t.state.asked (event :: calls.map Call.event) ∧
        bound t.state ≤ bound { e with kernel := k })
      fun stop _ => ∃ f, stop = .fault f ∧ f.isOverflow = true := by
  obtain ⟨m, rfl, h⟩ := run.atRest
  have hlater := h.later (k := k) later
  refine ends_iff.2 ⟨fun _ t hcall => ⟨.returns run later allowed hcall, ?_, bound_call_le hcall⟩,
    fun stop t hcall => ?_⟩
  · obtain ⟨m', hmoves, ht⟩ := Engine.moves_of_ok (m := { m with kernel := k }) hcall
    rw [← ht]
    exact Prepared.moves (m := { m with kernel := k }) prepared hmoves
  · obtain ⟨-, m', halts, -⟩ := Engine.halts_of_error (m := { m with kernel := k }) hcall
    obtain ⟨x, -, hx⟩ | ⟨f, rfl, hf⟩ := halts.reason hlater.coherent
    · exact absurd hx (plannable.not_complains untracked x)
    rw [← h.delivered] at allowed
    refine ⟨f, rfl, ?_⟩
    rcases hf Analytical.conforms (hlater.punctual Analytical.conforms.toSteady) allowed with
      hoverflow | ⟨m₁, hmoves, -, reissues⟩
    · exact hoverflow
    · exact absurd reissues
        (Prepared.moves (m := { m with kernel := k }) prepared hmoves).not_reissues

/-- How handing over the remaining events ends.  The fuel outlasts the events. -/
theorem ends_finishWithin (untracked : s.config.trackMemory = false) (plannable : s.Plannable)
    {fuel : Nat} : ∀ {calls : List Call} {e : Engine Analytical} {j : Array Entry},
      Run s calls e → calls ≠ [] → Prepared e.kernel e.asked (calls.map Call.event) →
        bound e < fuel → Ends (finishWithin fuel) ⟨e, j⟩
          (fun _ t => ∃ calls, Run s calls t.state ∧ Exhausted s calls t.state ∧
            t.state.workload.isFinished = true)
          fun stop t => (∃ f, stop = .fault f ∧ f.isOverflow = true) ∨
            ∃ calls, Run s calls t.state ∧ Exhausted s calls t.state ∧
              t.state.workload.isFinished = false ∧
              stop = .error (.stalled t.state.workload.graph.remaining) := by
  induction fuel with
  | zero => exact fun _ _ _ hfuel => absurd hfuel (Nat.not_lt_zero _)
  | succ fuel ih =>
      intro calls e j run fired prepared hfuel
      -- after every event there are fewer to come, so the loop ends before its fuel does
      obtain ⟨m, rfl, h⟩ := run.atRest
      have quiet := run.quiet untracked plannable
      simp only [finishWithin, step, ends_bind, ends_get, ends_ite, ends_pure]
      refine ⟨fun hfinished => ?_, fun hfinished => ?_⟩
      · exact ⟨calls, run, h.exhausted quiet fired (h.not_outstanding hfinished), hfinished⟩
      · cases hnext : m.kernel.next? with
        | none =>
            refine .inr ⟨calls, run, h.exhausted quiet fired (prepared.none hnext), ?_, rfl⟩
            exact Bool.eq_false_iff.2 hfinished
        | some next =>
            obtain ⟨event, k⟩ := next
            obtain ⟨hout, hlater, hprepared⟩ := prepared.next hnext
            have hpending := Analytical.pending_of_next hnext
            simp only [ends_update, ends_bind]
            refine (ends_call untracked plannable run hlater (.inr hout) hprepared).imp ?_ ?_
            · rintro _ t ⟨hrun, hprepared', hbound⟩
              refine ih hrun (List.cons_ne_nil _ _) hprepared' (Nat.lt_of_le_of_lt hbound ?_)
              simp only [bound] at hfuel ⊢
              omega
            · exact fun stop t hoverflow => .inl hoverflow

/-- **How a whole run ends.**  Unless a counter leaves its range, it comes to rest; it then has its finish
tick if the trace has no cycle, and else it stops with the number of stuck nodes. -/
theorem ends_run (untracked : s.config.trackMemory = false) (plannable : s.Plannable)
    (c : AnalyticalConfig) (j : Array Entry) : Ends run ⟨s.engine { config := c }, j⟩
      (fun tick t => s.Acyclic ∧ t.state.workload.finishTick = some tick ∧
        ∃ calls, Run s calls t.state ∧ Exhausted s calls t.state)
      fun stop t => (∃ f, stop = .fault f ∧ f.isOverflow = true) ∨
        ¬s.Acyclic ∧ stop = .error (.stalled {id | s.Stuck id}.ncard) ∧
          ∃ calls, Run s calls t.state ∧ Exhausted s calls t.state := by
  simp only [run, Engine.fire, ends_bind, ends_get, ends_pure]
  have hstart : Run s [] (s.engine { config := c : Analytical }) := .start _
  refine (ends_call untracked plannable hstart (Nat.le_refl _) (.inl rfl)
    (Prepared.initial c).wake).imp ?_ fun stop t hoverflow => .inl hoverflow
  rintro _ t ⟨hrun, hprepared, -⟩
  refine (ends_finishWithin untracked plannable hrun (List.cons_ne_nil _ _) hprepared
    (Nat.lt_succ_self _)).imp ?_ ?_
  · rintro _ t ⟨calls, run, exhausted, hfinished⟩
    obtain ⟨tick, htick⟩ := Option.isSome_iff_exists.1 hfinished
    rw [htick]
    exact ⟨exhausted.finished.1 hfinished, rfl, calls, run, exhausted⟩
  · rintro stop t (hoverflow | ⟨calls, run, exhausted, hunfinished, rfl⟩)
    · exact .inl hoverflow
    · refine .inr ⟨fun hacyclic => ?_, by rw [exhausted.remaining], calls, run, exhausted⟩
      cases hunfinished.symm.trans (exhausted.finished.2 hacyclic)

end Replay

/-! ### Deadlock freedom -/

/-- **Runs come to rest only when they have done all that can be done.**  No call returns an error, and
towards a kernel that keeps its promises a call stops only because a counter leaves its range.  A run
that has been fired comes to rest after exactly one completion for each node that is neither stuck nor
skipped, and is then exhausted.  A whole run on a fresh analytical kernel gets there, and does not owe
it to the bound on its events: it gives its finish tick if the trace has no cycle, and else it stalls
with the number of stuck nodes. -/
theorem Setup.deadlock_free (s : Setup) (untracked : s.config.trackMemory = false)
    (plannable : s.config.isStrict = false ∨
      Plan.invalidNodes s.config s.graph.tensorSizeOf s.graph.nodes.values = .ok []) :
    (∀ (κ : Type) [Kernel κ] (calls : List Call) (e : Engine κ), Run s calls e → Quiet calls ∧
      (Kernel.Conforms κ → ∀ (k : κ) (event : Event) (j : Array Entry),
        Kernel.now e.kernel ≤ Kernel.now k →
          event = .wake ∨ Outstanding (calls.map Call.event) e.asked event →
            Ends (Engine.call event) ⟨{ e with kernel := k }, j⟩ (fun _ _ => True) fun stop t =>
              MintsFresh (event :: calls.map Call.event) e.asked t.state.asked →
                ∃ f, stop = .fault f ∧ f.isOverflow = true) ∧
      deliveries calls ≤ {id | s.Replayed id}.ncard ∧
      (calls ≠ [] → (Answered calls e ↔ deliveries calls = {id | s.Replayed id}.ncard) ∧
        (Answered calls e → Exhausted s calls e))) ∧
    (∀ (e : Engine Analytical) (j : Array Entry) (fuel : Nat), Replay.bound e < fuel →
      Replay.finishWithin fuel ⟨e, j⟩ = Replay.finishWithin (Replay.bound e + 1) ⟨e, j⟩) ∧
    ∀ (c : AnalyticalConfig) (j : Array Entry), Ends Replay.run ⟨s.engine { config := c }, j⟩
      (fun tick t => s.Acyclic ∧ t.state.workload.finishTick = some tick ∧
        ∃ calls, Run s calls t.state ∧ Exhausted s calls t.state)
      fun stop t => (∃ f, stop = .fault f ∧ f.isOverflow = true) ∨
        ¬s.Acyclic ∧ stop = .error (.stalled {id | s.Stuck id}.ncard) ∧
          ∃ calls, Run s calls t.state ∧ Exhausted s calls t.state := by
  have hplannable := Setup.plannable plannable
  refine ⟨fun κ _ calls e run => ?_, fun e j fuel hfuel => ?_, Replay.ends_run untracked hplannable⟩
  · have quiet := run.quiet untracked hplannable
    obtain ⟨m, rfl, h⟩ := run.atRest
    refine ⟨quiet, fun conforms k event j later allowed => ?_, h.deliveries_le, fun fired => ?_⟩
    · exact (h.later later).ends_call conforms untracked hplannable allowed j
    · have hexhausted := h.exhausted quiet fired
      exact ⟨⟨fun answered => (hexhausted answered).deliveries, h.answered_of_deliveries⟩, hexhausted⟩
  · exact Replay.finishWithin_eq hfuel (Nat.lt_succ_self _)

/-- A cycle of two computations, one after them, and one that is free. -/
@[irreducible] def Setup.knot : Setup :=
  let task (id : NodeId) (dataDeps : List NodeId) : Node :=
    { id, name := "task", kind := .compute, dataDeps, ctrlDeps := []
      attributes := { runtime := some 3 } }
  .ofTrace {} [task 1 [2], task 2 [1], task 3 [2], task 4 []]

/-- In a knot three nodes are stuck.  Once the free one has come back a run has come to rest. -/
theorem Setup.deadlock_free_knot : {id | knot.Stuck id}.ncard = 3 ∧ ¬knot.Acyclic ∧
    ∃ e : Engine Analytical, knot.drive { config := {} }
        [(.nodeFinished ⟨0⟩, { config := {}, now := 3000 }), (.wake, { config := {} })] = some e ∧
      Exhausted knot [⟨.nodeFinished ⟨0⟩, none⟩, ⟨.wake, none⟩] e ∧
      Ends (Engine.call .wake) ⟨e, #[]⟩ (fun _ _ => True) fun stop t =>
        MintsFresh [.wake, .nodeFinished ⟨0⟩, .wake] e.asked t.state.asked →
          ∃ f, stop = .fault f ∧ f.isOverflow = true := by
  have htracked : knot.config.trackMemory = false := by decide +kernel
  have hvalid : Plan.invalidNodes knot.config knot.graph.tensorSizeOf knot.graph.nodes.values =
      .ok [] := by decide +kernel
  obtain ⟨hruns, -, hreplay⟩ := Setup.deadlock_free knot htracked (.inr hvalid)
  -- running it shows how many nodes are stuck
  have hstalls : Ends Replay.run ⟨knot.engine ({ config := {} } : Analytical), #[]⟩
      (fun _ _ => False) fun stop _ => stop = .error (.stalled 3) := by decide +kernel
  have hstuck : ¬knot.Acyclic ∧ {id | knot.Stuck id}.ncard = 3 := by
    rcases (hreplay {} #[]).outcome with ⟨tick, t, hrun, -⟩ | ⟨stop, t, hrun, hstop⟩
    · exact (hstalls.of_ok hrun).elim
    · cases hstalls.of_error hrun
      rcases hstop with ⟨f, ⟨⟩, -⟩ | ⟨hcyclic, hcount, -⟩
      exact ⟨hcyclic, (ReplayError.stalled.inj (Stop.error.inj hcount)).symm⟩
  have hdrive : ((knot.drive ({ config := {} } : Analytical)
      [(.nodeFinished ⟨0⟩, { config := {}, now := 3000 }), (.wake, { config := {} })]).map
        fun e => owed e.asked) = some [.nodeFinished ⟨0⟩] := by decide +kernel
  obtain ⟨e, he, howed⟩ := Option.map_eq_some_iff.1 hdrive
  obtain ⟨-, hcalls, -, hrest⟩ := hruns Analytical _ e (.of_drive he)
  have hanswered : Answered [⟨.nodeFinished ⟨0⟩, none⟩, ⟨.wake, none⟩] e := by
    intro event hout
    unfold Outstanding at hout
    rw [howed] at hout
    exact absurd hout (Nat.not_lt.2 ((List.sublist_append_left _ [.wake]).count_le event))
  exact ⟨hstuck.2, hstuck.1, e, he, (hrest (List.cons_ne_nil _ _)).2 hanswered,
    hcalls Analytical.conforms e.kernel .wake #[] (Nat.le_refl _) (.inl rfl)⟩

end TraceReplay
