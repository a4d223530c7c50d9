/-
**A wake at rest changes nothing.**

A drain takes every node out of the queue and puts back those that find no slot.  Between two calls of a
run without errors there are no others in the queue, so that a wake hands them all back, in their order,
and neither asks anything of the kernel nor ends the run.  Wakes may therefore be put into a run wherever
one likes, except before the first one, which is what gets it going.

Main definitions:

* `Delivery`, `Setup.deliver` — calls with what they are made with, and the engine after them;
* `Delivered` — runs without errors, with what their calls are made with;
* `Padded` — wakes are put in behind the first call.

Main results:

* `Engine.ends_drain_of_blocked` — a drain that finds no slot for any node changes nothing;
* `AtRest.wake` — **neither does a wake at rest**;
* `Delivered.wakes_harmless` — so wakes put into a run change nothing either.
-/

import TraceReplay.Proofs.Schedule

set_option relaxedAutoImplicit false
set_option autoImplicit false

namespace TraceReplay

open TraceReplay.Action

variable {κ : Type} [Kernel κ]

/-! ### Drains that issue nothing -/

namespace Engine

variable {e : Engine κ}

/-- A node in the queue for which there is no slot. -/
def Holds (e : Engine κ) (id : NodeId) : Prop :=
  ∃ n, e.workload.graph.lookup id = some n ∧ e.workload.pool.hasRoom n.nodeClass = false

/-- Nodes for which there is no slot are put aside, behind those that already are, and come back in this
order. -/
theorem ends_drainFrom_of_blocked {fuel : Nat} : ∀ (ids held : List NodeId) {j : Array Entry},
    ids.length < fuel → (∀ id ∈ ids, e.Holds id) →
      Ends (drainFrom fuel held) ⟨{ e with workload := e.workload.withReady ids }, j⟩
        (fun _ t => t.state = { e with workload := e.workload.withReady (held ++ ids) })
        fun _ _ => False := by
  induction fuel with
  | zero => intro ids held j hfuel; omega
  | succ fuel ih =>
      intro ids held j hfuel hblocked
      simp only [drainFrom, ends_bind, ends_takeReady]
      cases ids with
      | nil =>
          simp only [Workload.withReady, handBack, ends_updateWorkload, foldl_pushBack,
            List.nil_append, List.append_nil]
      | cons id ids =>
          obtain ⟨⟨n, hn, hfull⟩, hblocked⟩ := List.forall_mem_cons.1 hblocked
          have found : (e.workload.withReady (id :: ids)).graph.lookup id = some n := hn
          simp only [Workload.withReady, Graph.lookup] at found ⊢
          simp only [ends_lookup, Graph.lookup, found, onPool, SlotPool.check, ends_on, ends_stopAs,
            ends_bind, ends_get, ends_note, ends_pure, hfull, Bool.false_eq_true, ↓reduceIte]
          refine (ih ids (held ++ [id]) (by simpa using hfuel) hblocked).imp ?_ fun _ _ h => h
          rintro _ t ht
          rw [ht, List.append_assoc]
          rfl

/-- **A drain that finds no slot for any node changes nothing.** -/
theorem ends_drain_of_blocked (hblocked : ∀ id ∈ e.workload.graph.ready, e.Holds id) (j : Array Entry) :
    Ends drain ⟨e, j⟩ (fun _ t => t.state = e) fun _ _ => False := by
  simp only [drain, workloadOf, ends_bind, ends_get, ends_pure]
  refine ends_drainFrom_of_blocked e.workload.graph.ready [] ?_ hblocked
  rw [Graph.work]
  omega

/-- So a wake changes nothing then, unless it is the one after which no work is left. -/
theorem ends_wake_of_blocked (hblocked : ∀ id ∈ e.workload.graph.ready, e.Holds id)
    (hbusy : e.workload.isFinished = false →
      (e.workload.adapter.hasRemainingWork e.workload.graph || !e.workload.pool.isIdle) = true)
    (j : Array Entry) : Ends (call .wake) ⟨e, j⟩ (fun _ t => t.state = e) fun _ _ => False := by
  cases hfinished : e.workload.isFinished with
  | true =>
      rw [Ends, call_of_isFinished hfinished]
  | false =>
      simp only [call_eq, turn, workloadOf, ends_bind, ends_get, ends_pure, hfinished,
        Bool.false_eq_true, ↓reduceIte]
      refine (ends_drain_of_blocked hblocked j).imp ?_ fun _ _ hfalse => hfalse
      intro _ t ht
      simp only [checkTermination, workloadOf, ends_bind, ends_get, ends_pure, ht, hbusy hfinished,
        ↓reduceIte]

end Engine

/-! ### Wakes at rest -/

namespace AtRest

variable {s : Setup} {calls : List Call} {m : Moment κ}

/-- At rest there is no slot for any node in the queue. -/
theorem holds (h : AtRest s calls m) (quiet : Quiet calls) (awake : calls ≠ []) {id : NodeId}
    (hid : id ∈ m.workload.graph.ready) : m.Holds id := by
  obtain ⟨⟨n, hn, -⟩, hnone⟩ := (h.ready_iff quiet id).1 hid
  have hopen : Record.ended m.workload.statistics.records id = false := by
    rw [Record.ended, hnone, Option.any_none]
  refine ⟨n, ?_, h.blocked quiet awake id n hid hn⟩
  rw [h.lookup_eq quiet, hopen]
  exact hn

/-- **A wake at rest changes nothing**, whatever the kernel has done in the meantime. -/
theorem wake (h : AtRest s calls m) (quiet : Quiet calls) (awake : calls ≠ []) (k : κ)
    (j : Array Entry) :
    Ends (Engine.call .wake) ⟨{ m.toEngine with kernel := k }, j⟩
      (fun _ t => t.state = { m.toEngine with kernel := k }) fun _ _ => False := by
  refine Engine.ends_wake_of_blocked (e := { m.toEngine with kernel := k })
    (fun id hid => h.holds quiet awake hid) (fun hunfinished => ?_) j
  -- there is still work to do, or a slot is taken
  rw [h.coherent.adapter, Bool.or_eq_true, Bool.not_eq_true']
  exact h.busy quiet awake hunfinished

end AtRest

/-! ### Runs with wakes put in -/

/-- A call with what it is made with: the event, and kernel and journal at that time. -/
structure Delivery (κ : Type) where
  event : Event
  kernel : κ
  journal : Array Entry := #[]

/-- The engine after calls, latest first; there is none if one of them does not return. -/
def Setup.deliver (s : Setup) (k : κ) : List (Delivery κ) → Option (Engine κ)
  | [] => some (s.engine k)
  | d :: ds => do
      let e ← s.deliver k ds
      match Engine.call d.event ⟨{ e with kernel := d.kernel }, d.journal⟩ with
      | .ok _ t => some t.state
      | .error _ _ => none

/-- Runs without errors, with what their calls are made with, latest first. -/
inductive Delivered (s : Setup) (k : κ) : List (Delivery κ) → Engine κ → Prop
  | start : Delivered s k [] (s.engine k)
  | returns {ds : List (Delivery κ)} {e : Engine κ} {d : Delivery κ} {t : Logged (Engine κ)}
      (run : Delivered s k ds e) (later : Kernel.now e.kernel ≤ Kernel.now d.kernel)
      (conforms : d.event = .wake ∨ Outstanding (ds.map Delivery.event) e.asked d.event)
      (call : Engine.call d.event ⟨{ e with kernel := d.kernel }, d.journal⟩ = .ok () t) :
      Delivered s k (d :: ds) t.state

/-- Wakes are put in behind the first call; latest calls first. -/
inductive Padded : List (Delivery κ) → List (Delivery κ) → Prop
  | first (d : Delivery κ) : Padded [d] [d]
  | call {ds ds' : List (Delivery κ)} (d : Delivery κ) (padded : Padded ds ds') :
      Padded (d :: ds) (d :: ds')
  | wake {ds ds' : List (Delivery κ)} (k : κ) (j : Array Entry) (padded : Padded ds ds') :
      Padded ds (⟨.wake, k, j⟩ :: ds')

omit [Kernel κ] in
theorem Padded.ne_nil {ds ds' : List (Delivery κ)} (padded : Padded ds ds') : ds ≠ [] := by
  induction padded with
  | first => exact List.cons_ne_nil _ _
  | call => exact List.cons_ne_nil _ _
  | wake _ _ _ ih => exact ih

variable {s : Setup} {k : κ} {ds : List (Delivery κ)} {e : Engine κ}

theorem Setup.deliver_cons {d : Delivery κ} {k' : κ} {t : Logged (Engine κ)}
    (h : s.deliver k ds = some { e with kernel := k' })
    (call : Engine.call d.event ⟨{ e with kernel := d.kernel }, d.journal⟩ = .ok () t) :
    s.deliver k (d :: ds) = some t.state := by
  rw [deliver, h]
  simp only [Option.bind_eq_bind, Option.bind_some, call]

/-- Every run without errors is one of them, -/
theorem Run.delivered {calls : List Call} (run : Run s calls e) (quiet : Quiet calls) :
    ∃ k ds, calls = ds.map (fun d => ⟨d.event, none⟩) ∧ Delivered s k ds e := by
  induction run with
  | start k => exact ⟨k, [], rfl, .start⟩
  | @returns calls e k' event j t run later conforms call ih =>
      obtain ⟨k, ds, rfl, delivered⟩ := ih fun c hc => quiet c (List.mem_cons_of_mem _ hc)
      refine ⟨k, ⟨event, k', j⟩ :: ds, rfl, .returns delivered later ?_ call⟩
      rwa [List.map_map] at conforms
  | fails => cases quiet _ List.mem_cons_self

namespace Delivered

/-- and these are runs without errors. -/
theorem run (h : Delivered s k ds e) : Run s (ds.map fun d => ⟨d.event, none⟩) e := by
  induction h with
  | start => exact .start k
  | returns run later conforms call ih =>
      refine .returns ih later ?_ call
      rwa [List.map_map]

/-- A run that is computed is one of them. -/
theorem of_drive : ∀ {steps : List (Event × κ)} {e : Engine κ}, s.drive k steps = some e →
    Delivered s k (steps.map fun step => ⟨step.1, step.2, #[]⟩) e := by
  intro steps
  induction steps with
  | nil =>
      intro e h
      cases h
      exact .start
  | cons step steps ih =>
      intro e h
      obtain ⟨e', t, he', later, conforms, call, rfl⟩ := Setup.of_drive_cons h
      refine .returns (ih he') later ?_ call
      rwa [List.map_map]

/-- A wake changes nothing after the first call. -/
theorem wake (h : Delivered s k ds e) (awake : ds ≠ []) (k' : κ) (j : Array Entry) :
    Ends (Engine.call .wake) ⟨{ e with kernel := k' }, j⟩
      (fun _ t => t.state = { e with kernel := k' }) fun _ _ => False := by
  obtain ⟨m, rfl, hrest⟩ := h.run.atRest
  refine hrest.wake (fun c hc => ?_) (by simpa using awake) k' j
  obtain ⟨d, -, rfl⟩ := List.mem_map.1 hc
  rfl

/-- Wakes that are put in do not matter for the calls that follow. -/
theorem deliver_of_padded {ds' : List (Delivery κ)} (padded : Padded ds ds') (h : Delivered s k ds e) :
    ∃ k', s.deliver k ds' = some { e with kernel := k' } := by
  induction padded generalizing e with
  | first d =>
      obtain ⟨⟩ | ⟨run, later, conforms, call⟩ := h
      cases run
      have hstart : s.deliver k [] = some { s.engine k with kernel := k } := rfl
      exact ⟨_, Setup.deliver_cons hstart call⟩
  | call d padded ih =>
      obtain ⟨⟩ | ⟨run, later, conforms, call⟩ := h
      obtain ⟨k', hdeliver⟩ := ih run
      exact ⟨_, Setup.deliver_cons hdeliver call⟩
  | wake k' j padded ih =>
      obtain ⟨k'', hdeliver⟩ := ih h
      obtain ⟨_, t, hwake, ht⟩ := (h.wake padded.ne_nil k' j).exists_ok
      exact ⟨k', ht ▸ Setup.deliver_cons hdeliver hwake⟩

/-- **Wakes are harmless.**  After calls that have all returned, the first of them a wake, another wake
returns and leaves everything as it is, the queue with its order and the requests made so far included.
So if wakes are put in anywhere behind the first call, with kernels and journals that the engine may find
then, the calls still return and lead to the same engine. -/
theorem wakes_harmless (run : Delivered s k ds e) (awake : ds ≠ []) :
    (∀ (k' : κ) (j : Array Entry), Ends (Engine.call .wake) ⟨{ e with kernel := k' }, j⟩
      (fun _ t => t.state = { e with kernel := k' }) fun _ _ => False) ∧
    ∀ ds', Padded ds ds' → ∃ k', s.deliver k ds' = some { e with kernel := k' } :=
  ⟨run.wake awake, fun _ padded => run.deliver_of_padded padded⟩

/-- A wake is put in between the first one and the end of the computation. -/
theorem wakes_harmless_pair : ∃ (e : Engine Scripted) (k' : Scripted),
    Delivered Setup.pair {} [⟨.nodeFinished ⟨0⟩, { now := 5 }, #[]⟩, ⟨.wake, {}, #[]⟩] e ∧
      Setup.pair.deliver {} [⟨.nodeFinished ⟨0⟩, { now := 5 }, #[]⟩, ⟨.wake, { now := 2 }, #[]⟩,
        ⟨.wake, {}, #[]⟩] = some { e with kernel := k' } ∧ e.asked.size = 2 := by
  have hdrive : ((Setup.pair.drive ({} : Scripted) [(.nodeFinished ⟨0⟩, { now := 5 }),
      (.wake, {})]).map fun e => e.asked.size) = some 2 := by decide +kernel
  obtain ⟨e, he, hsize⟩ := Option.map_eq_some_iff.1 hdrive
  have run := of_drive he
  obtain ⟨k', hdeliver⟩ := (wakes_harmless run (List.cons_ne_nil _ _)).2 _
    (.call _ (.wake { now := 2 } #[] (.first _)))
  exact ⟨e, k', run, hdeliver, hsize⟩

end Delivered

end TraceReplay
