/-
**Lists of parents as sets.**

The graph sorts the parents of a node and drops repetitions, but the bytes that a computation touches are
added up over its data parents as they are listed.  So a trace may list the parents of its nodes in another
order or more than once, and the engine does not notice, except where the roofline model adds up another
sum.

Main definitions:

* `Relisting`, `Relisting.node` — other lists with the same parents, and a node with such lists;
* `Relisting.Spares` — the sum that a node is planned with, if it is, stays the same;
* `Setup.relisted`, `Relisting.engine` — the same run with other lists.

Main results:

* `Relisting.ofNode_eq_iff` — plans stay the same exactly if the sums do;
* `Setup.relisted_agrees` — **then the whole replay does**.
-/

import TraceReplay.Proofs.BadNodes
import TraceReplay.Proofs.Preflight
import TraceReplay.Proofs.Touched

set_option relaxedAutoImplicit false
set_option autoImplicit false

namespace TraceReplay

open Relation
open TraceReplay.Action

/-- Other lists of parents with the same members.  The nodes of a trace differ in their ids, so that each
may get lists of its own. -/
structure Relisting where
  dataDeps : Node → List NodeId
  ctrlDeps : Node → List NodeId
  mem_dataDeps : ∀ n p, p ∈ dataDeps n ↔ p ∈ n.dataDeps
  mem_ctrlDeps : ∀ n p, p ∈ ctrlDeps n ↔ p ∈ n.ctrlDeps

namespace Relisting

/-- Every parent is listed once, in ascending order. -/
def once : Relisting where
  dataDeps n := ascending n.dataDeps
  ctrlDeps n := ascending n.ctrlDeps
  mem_dataDeps _ _ := mem_ascending
  mem_ctrlDeps _ _ := mem_ascending

variable (r : Relisting)

/-- A node with the other lists. -/
def node (n : Node) : Node := { n with dataDeps := r.dataDeps n, ctrlDeps := r.ctrlDeps n }

/-- An engine with the other lists in its graph. -/
def engine {κ : Type} (e : Engine κ) : Engine κ :=
  { e with workload := { e.workload with graph := e.workload.graph.mapNodes r.node } }

theorem id_node (n : Node) : (r.node n).id = n.id := rfl

theorem distinctParents_node (n : Node) : (r.node n).distinctParents = n.distinctParents := by
  refine ascending_congr fun p => ?_
  rw [Node.parents, Node.parents, List.mem_append, List.mem_append]
  exact or_congr (r.mem_dataDeps n p) (r.mem_ctrlDeps n p)

theorem dataDeps_eq_nil_iff (n : Node) : (r.node n).dataDeps = [] ↔ n.dataDeps = [] := by
  simp only [List.eq_nil_iff_forall_not_mem]
  exact forall_congr' fun p => not_congr (r.mem_dataDeps n p)

/-- It is the engine in disguise. -/
theorem engine_eq {κ : Type} (e : Engine κ) : (Disguise.ofNodes r.node).engine e = r.engine e := by
  simp only [Disguise.engine, Disguise.workload, Disguise.statistics_ofNodes, engine]
  rfl

/-! ### Plans -/

/-- Under the roofline model the bytes that a node touches add up to the same, or they are too many either
way. -/
def Spares (s : Setup) (n : Node) : Prop :=
  n.ByRoofline s.config →
    Plan.touched s.graph.tensorSizeOf (r.node n) = Plan.touched s.graph.tensorSizeOf n ∨
      Counter.limit ≤ Plan.touched s.graph.tensorSizeOf (r.node n) ∧
        Counter.limit ≤ Plan.touched s.graph.tensorSizeOf n

variable {r}

/-- Without the roofline model every relisting is good, -/
theorem spares_of_not_byRoofline {s : Setup} {n : Node} (h : ¬n.ByRoofline s.config) : r.Spares s n :=
  fun hroofline => absurd hroofline h

/-- and with it one that lists data parents as often as before. -/
theorem spares_of_perm {s : Setup} {n : Node} (h : (r.dataDeps n).Perm n.dataDeps) : r.Spares s n :=
  fun _ => .inl (congrArg (n.tensorSize + ·) (h.map _).sum_nat)

end Relisting

namespace Plan

variable {c : EngineConfig} {sizeOf : NodeId → Option Nat} {n : Node}

/-- The bytes that a node touches come to the same with other lists if the sums agree. -/
theorem ioSize_eq_iff (r : Relisting) (known : ∀ p ∈ n.dataDeps, (sizeOf p).isSome = true) :
    ioSize sizeOf (r.node n) = ioSize sizeOf n ↔
      touched sizeOf (r.node n) = touched sizeOf n ∨
        Counter.limit ≤ touched sizeOf (r.node n) ∧ Counter.limit ≤ touched sizeOf n := by
  rw [ioSize_eq known, ioSize_eq fun p hp => known p ((r.mem_dataDeps n p).1 hp)]
  by_cases halone : n.dataDeps = []
  · have halone' := (r.dataDeps_eq_nil_iff n).2 halone
    have hsame : touched sizeOf (r.node n) = touched sizeOf n := by
      rw [touched, touched, halone, halone']
      rfl
    simp [halone, halone', hsame]
  · have halone' := mt (r.dataDeps_eq_nil_iff n).1 halone
    simp only [halone, halone', false_or]
    split
    next hlt =>
      split
      · simp [Nat.not_le.2 hlt]
      next hge => simp [Nat.not_le.2 hlt]; omega
    next hge =>
      split
      next hlt => simp [Nat.not_le.2 hlt]; omega
      next hge' => simp [Nat.not_lt.1 hge, Nat.not_lt.1 hge']

/-- The plan of a computation tells how many bytes were added up, or that they were too many. -/
theorem ofSize_inj {id : NodeId} {numOps : Nat} {x y : Except Stop Nat}
    (hx : ∀ e, x ≠ .error (.error e)) (hy : ∀ e, y ≠ .error (.error e))
    (h : ofSize id numOps x = ofSize id numOps y) : x = y := by
  cases x with
  | error stop =>
      cases stop with
      | error e => exact absurd rfl (hx e)
      | fault f =>
          cases y with
          | error stop' => cases h; rfl
          | ok b => cases b <;> cases h
  | ok a =>
      cases y with
      | error stop =>
          cases stop with
          | error e => exact absurd rfl (hy e)
          | fault f => cases a <;> cases h
      | ok b =>
          cases a with
          | zero =>
              cases b with
              | zero => rfl
              | succ b => cases h
          | succ a =>
              cases b with
              | zero => cases h
              | succ b => cases h; rfl

theorem ioSize_ne_error (known : ∀ p ∈ n.dataDeps, (sizeOf p).isSome = true) (e : ReplayError) :
    ioSize sizeOf n ≠ .error (.error e) := by
  rw [ioSize_eq known]
  split <;> rintro ⟨⟩

end Plan

/-- **Plans stay the same exactly if the sums do.** -/
theorem Relisting.ofNode_eq_iff (r : Relisting) {s : Setup} {n : Node} (hn : n ∈ s.trace) :
    Plan.ofNode s.config s.graph.tensorSizeOf (r.node n) (r.node n).nodeClass =
        Plan.ofNode s.config s.graph.tensorSizeOf n n.nodeClass ↔ r.Spares s n := by
  have known := Setup.known_of_mem hn
  have known' : ∀ p ∈ (r.node n).dataDeps, (s.graph.tensorSizeOf p).isSome = true :=
    fun p hp => known p ((r.mem_dataDeps n p).1 hp)
  by_cases hroofline : n.ByRoofline s.config
  · have hroofline' : (r.node n).ByRoofline s.config := { hroofline with }
    obtain ⟨numOps, hops, hplan⟩ := Plan.ofNode_of_byRoofline s.graph.tensorSizeOf hroofline
    obtain ⟨numOps', hops', hplan'⟩ := Plan.ofNode_of_byRoofline s.graph.tensorSizeOf hroofline'
    cases hops.symm.trans hops'
    rw [hplan, hplan', Spares, forall_prop_of_true hroofline, ← Plan.ioSize_eq_iff r known]
    constructor
    · exact Plan.ofSize_inj (Plan.ioSize_ne_error known') (Plan.ioSize_ne_error known)
    · intro hsize
      rw [hsize]
      rfl
  · exact iff_of_true (Plan.ofNode_congr hroofline rfl rfl rfl) (spares_of_not_byRoofline hroofline)

/-! ### Replays -/

namespace Setup

variable (s : Setup) (r : Relisting)

/-- The trace with other lists, which is accepted as well. -/
def relisted : Setup where
  trace := s.trace.map r.node
  files := s.files
  config := s.config
  graph := s.graph.mapNodes r.node
  workload := { s.workload with graph := s.graph.mapNodes r.node }
  entries := s.entries
  accepted := by
    rw [Graph.ofNodes_map r.id_node r.distinctParents_node, s.accepted]
    rfl
  created := Workload.create_withGraph s.created _

theorem engine_relisted {κ : Type} (k : κ) : (s.relisted r).engine k = r.engine (s.engine k) := by
  obtain ⟨-, group, hw⟩ := s.created_iff
  simp only [Setup.engine, relisted, Relisting.engine, hw]
  rfl

theorem planOf_relisted (n : Node) : (s.relisted r).workload.planOf (r.node n) =
    Plan.ofNode s.config s.graph.tensorSizeOf (r.node n) (r.node n).nodeClass := by
  have hsizes : (s.graph.mapNodes r.node).tensorSizeOf = s.graph.tensorSizeOf :=
    funext fun id => Graph.tensorSizeOf_mapNodes s.graph id fun _ => rfl
  rw [planOf_eq_ofNode, ← hsizes]
  rfl

variable {s r}

/-- The engine does not notice other lists of which the same sums are made. -/
theorem fits_relisting (spares : ∀ n ∈ s.trace, r.Spares s n) (κ : Type) [Kernel κ] :
    (Disguise.ofNodes r.node).Fits s κ fun _ => False := by
  refine Disguise.fits_ofNodes (fun _ => rfl) (fun _ => rfl) ?_ (fun _ _ _ _ => rfl)
    fun _ _ _ _ => rfl
  intro id n hn
  obtain ⟨hmem, -⟩ := (s.built.lookup_iff id n).1 hn
  have hplan : s.workload.planOf (r.node n) = s.workload.planOf n := by
    rw [s.planOf_eq_ofNode, s.planOf_eq_ofNode]
    exact (r.ofNode_eq_iff hmem).2 (spares n hmem)
  rw [Workload.decision, Workload.decision, hplan]

/-- A call with other lists. -/
theorem call_relisted (spares : ∀ n ∈ s.trace, r.Spares s n) {κ : Type} [Kernel κ]
    (blind : Kernel.Blind κ) (event : Event) {m : Moment κ} (h : Coherent s m) :
    Mirrors (Disguise.ofNodes r.node).engine (fun _ => False) (Engine.call event)
      (Engine.call event) m.toEngine fun _ _ _ => True :=
  (fits_relisting spares κ).mirrors_call blind h fun _ _ _ _ _ _ _ _ => rfl

/-- **A run with other lists** makes the same calls, with the same results. -/
theorem run_relisted (spares : ∀ n ∈ s.trace, r.Spares s n) {κ : Type} [Kernel κ]
    (blind : Kernel.Blind κ) {calls : List Call} {e : Engine κ} (run : Run s calls e) :
    Run (s.relisted r) calls (r.engine e) := by
  induction run with
  | start k =>
      rw [← s.engine_relisted r]
      exact .start k
  | @returns calls e k event j t run later conforms call ih =>
      obtain ⟨m, rfl, h⟩ := run.atRest
      have hcall := call_relisted spares blind event (h.later later).coherent
      obtain ⟨⟨⟩, t', call', ht, -⟩ := hcall.of_ok call j
      rw [Relisting.engine_eq] at call' ht
      exact ht ▸ ih.returns later conforms call'
  | @fails calls e k event j t x run later conforms call ih =>
      obtain ⟨m, rfl, h⟩ := run.atRest
      have hcall := call_relisted spares blind event (h.later later).coherent
      obtain hfalse | ⟨t', call', ht⟩ := hcall.of_error call j
      · exact hfalse.elim
      · rw [Relisting.engine_eq] at call' ht
        exact ht ▸ ih.fails later conforms call'

/-- **Lists of parents as sets.**  The plan of a node does not depend on how its parents are listed exactly
if the bytes that it touches under the roofline model, summed as listed, do not.  If that is so for all
nodes of a trace, then runs with other lists make the same calls and have the same results, on every
kernel, and so does a whole run on the analytical kernel: it ends in the same way and leaves the same
state, but for the lists in its graph. -/
theorem relisted_agrees (s : Setup) (r : Relisting) :
    (∀ n ∈ s.trace, (s.relisted r).workload.planOf (r.node n) = s.workload.planOf n ↔ r.Spares s n) ∧
    ((∀ n ∈ s.trace, r.Spares s n) →
      (∀ (κ : Type) [Kernel κ], Kernel.Blind κ → ∀ (calls : List Call) (e : Engine κ),
        Run s calls e → Run (s.relisted r) calls (r.engine e)) ∧
      ∀ (c : AnalyticalConfig) (j j' : Array Entry), Ends Replay.run ⟨s.engine { config := c }, j⟩
        (fun tick t => Ends Replay.run ⟨(s.relisted r).engine { config := c }, j'⟩
          (fun tick' t' => tick' = tick ∧ t'.state = r.engine t.state) fun _ _ => False)
        fun stop t => Ends Replay.run ⟨(s.relisted r).engine { config := c }, j'⟩
          (fun _ _ => False) fun stop' t' => stop' = stop ∧ t'.state = r.engine t.state) := by
  refine ⟨fun n hn => ?_, fun spares => ⟨fun κ _ blind calls e => run_relisted spares blind,
    fun c j j' => ?_⟩⟩
  · rw [planOf_relisted, s.planOf_eq_ofNode]
    exact r.ofNode_eq_iff hn
  · have hrun := (fits_relisting spares Analytical).mirrors_run (c := c) (fun _ _ _ _ _ _ => rfl) j j'
    rw [Relisting.engine_eq, ← s.engine_relisted] at hrun
    refine hrun.imp (fun tick t hok => hok.imp ?_ fun _ _ hfalse => hfalse) fun stop t hstop =>
      (hstop.resolve_left id).imp (fun _ _ hfalse => hfalse) ?_
    · rintro tick' t' ⟨ht, htick⟩
      exact ⟨htick, ht.trans (r.engine_eq _)⟩
    · rintro stop' t' ⟨hsame, ht⟩
      exact ⟨hsame, ht.trans (r.engine_eq _)⟩

/-- A collective without primitive, a node without class, and a computation under the roofline model that
depends on the first and consumes what it lists. -/
def mixing (dataDeps : List NodeId) : List Node := [
  { id := 1, name := "collective", kind := .collective, dataDeps := [], ctrlDeps := []
    attributes := {
      commType := some .broadcast, commSize := some 8, runtime := some 3, tensorSize := some 8 } },
  { id := 2, name := "nothing", kind := .invalid, dataDeps := [], ctrlDeps := []
    attributes := { tensorSize := some 2 } },
  { id := 3, name := "mixture", kind := .compute, dataDeps, ctrlDeps := [1, 1]
    attributes := { numOps := some 10, tensorSize := some 4 } }]

/-- The state before such a trace is replayed. -/
@[irreducible] def mixture (dataDeps : List NodeId)
    (known : (Graph.ofNodes (mixing dataDeps)).isOk = true) : Setup :=
  .ofTrace { roofline := some ⟨1, 1⟩ } (mixing dataDeps) ⟨known, rfl, rfl⟩

/-- Sorting the parents of a mixture and dropping the repetition among those that it waits for changes
nothing. -/
theorem relisted_agrees_mixture : (mixture [2, 1] rfl).config.roofline.isSome = true ∧
    ∃ t t', Replay.run ⟨(mixture [2, 1] rfl).engine { config := {} }, #[]⟩ = .ok 3014 t ∧
      Replay.run ⟨((mixture [2, 1] rfl).relisted .once).engine { config := {} }, #[]⟩ = .ok 3014 t' ∧
      t'.state = Relisting.once.engine t.state := by
  have htrace : (mixture [2, 1] rfl).trace = mixing [2, 1] := by unfold mixture; rfl
  have hspares : ∀ n ∈ (mixture [2, 1] rfl).trace, Relisting.once.Spares (mixture [2, 1] rfl) n := by
    intro n hn
    have hperm : ∀ n ∈ mixing [2, 1], (Relisting.once.dataDeps n).Perm n.dataDeps := by decide
    exact Relisting.spares_of_perm (hperm n (htrace ▸ hn))
  have hruns : Ends Replay.run ⟨(mixture [2, 1] rfl).engine { config := {} }, #[]⟩
      (fun tick _ => tick = 3014) fun _ _ => False := by decide +kernel
  obtain ⟨-, hagrees⟩ := relisted_agrees (mixture [2, 1] rfl) .once
  have hsame := (hagrees hspares).2 {} #[] #[]
  refine ⟨by decide +kernel, ?_⟩
  obtain ⟨tick, t, hrun, rfl⟩ := hruns.exists_ok
  obtain ⟨tick', t', hrun', rfl, ht⟩ := (hsame.of_ok hrun).exists_ok
  exact ⟨t, t', hrun, hrun', ht⟩

/-- But a data parent of a mixture that is listed twice is added up twice. -/
theorem mixture_counts_twice :
    ∃ n ∈ (mixture [1, 1] rfl).trace, n.dataDeps = [1, 1] ∧
      ((mixture [1, 1] rfl).relisted .once).workload.planOf (Relisting.once.node n) =
        .ok (.roofline 10 12) ∧
      (mixture [1, 1] rfl).workload.planOf n = .ok (.roofline 10 20) := by
  decide +kernel

end Setup

end TraceReplay
