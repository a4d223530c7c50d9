/-
**The list of bad nodes foretells the run.**

Before a run the nodes that cannot be planned are listed against the whole graph; during the run each
node is planned when it is issued, after some of its parents have been removed.  Both agree: the sizes of
removed tensors are remembered, and every node that is not stuck is come to.  A strict run stops at a bad
node exactly if it comes to one; a lenient run skips exactly the bad nodes that it comes to.

Main definitions:

* `Setup.Refused` — a node that is not stuck cannot be planned, and the run does not forgive it;
* `Setup.Sifted` — the records of a run that has skipped exactly the bad nodes that are not stuck.

Main results:

* `Plan.exists_of_mem_invalidNodes` — every node that is listed cannot be planned;
* `Setup.Breaks.reason` — why a whole run breaks off;
* `Setup.Rests.ended_iff` — what a whole run has come to when nothing is left to deliver;
* `Setup.preflight_agrees` — **the list of bad nodes foretells how a whole run ends**.
-/

import TraceReplay.Proofs.ServiceTime

set_option relaxedAutoImplicit false
set_option autoImplicit false

namespace TraceReplay

open Relation
open TraceReplay.Action

/-! ### The list of bad nodes -/

theorem exists_of_mem_mapM {ε α β : Type} {f : α → Except ε β} {l : List α} : ∀ {bs : List β},
    l.mapM f = .ok bs → ∀ b ∈ bs, ∃ a ∈ l, f a = .ok b := by
  induction l with
  | nil => intro bs h b hb; cases h; cases hb
  | cons a l ih =>
      intro bs h b hb
      rw [List.mapM_cons] at h
      obtain ⟨b', hb', h⟩ := Plan.exists_of_bind_ok h
      obtain ⟨bs', hbs', h⟩ := Plan.exists_of_bind_ok h
      cases h
      rcases List.mem_cons.1 hb with rfl | hb
      · exact ⟨a, List.mem_cons_self, hb'⟩
      · obtain ⟨a', ha', hf⟩ := ih hbs' b hb
        exact ⟨a', List.mem_cons_of_mem _ ha', hf⟩

/-- Every node that is listed cannot be planned. -/
theorem Plan.exists_of_mem_invalidNodes {c : EngineConfig} {sizeOf : NodeId → Option Nat}
    {ns : List Node} {bad : List (NodeId × String)} (h : invalidNodes c sizeOf ns = .ok bad)
    {p : NodeId × String} (hp : p ∈ bad) :
    ∃ n ∈ ns, ∃ e, ofNode c sizeOf n n.nodeClass = .error (.error e) ∧ p = (n.id, e.message) := by
  obtain ⟨problems, hproblems, h⟩ := exists_of_bind_ok h
  cases h
  obtain ⟨⟨id, problem⟩, hmem, hp⟩ := List.mem_filterMap.1 hp
  obtain ⟨e, rfl, rfl⟩ := Option.map_eq_some_iff.1 hp
  obtain ⟨n, hn, hf⟩ := exists_of_mem_mapM hproblems _ hmem
  obtain ⟨problem, hproblem, hf⟩ := exists_of_bind_ok hf
  cases hf
  refine ⟨n, hn, e, ?_, rfl⟩
  unfold problem? at hproblem
  split at hproblem
  next => cases hproblem
  next e' he' => cases hproblem; exact he'
  next => cases hproblem

namespace Setup

variable {s : Setup}

/-- The plans before the run. -/
theorem planOf_eq_ofNode (s : Setup) (n : Node) :
    s.workload.planOf n = Plan.ofNode s.config s.graph.tensorSizeOf n n.nodeClass := by
  obtain ⟨-, group, hw⟩ := s.created_iff
  rw [hw]
  rfl

theorem forgives_eq (s : Setup) (x : ReplayError) :
    s.workload.forgives x = (!s.config.isStrict && x.isLocal) := by
  obtain ⟨-, group, hw⟩ := s.created_iff
  rw [Workload.forgives, hw]
  rfl

variable {bad : List (NodeId × String)}
variable (listed : Plan.invalidNodes s.config s.graph.tensorSizeOf s.graph.nodes.values = .ok bad)

include listed

/-- A node on the list cannot be planned. -/
theorem lookup_of_listed {id : NodeId} (hid : id ∈ bad.map Prod.fst) :
    ∃ n x, s.graph.lookup id = some n ∧ s.workload.planOf n = .error (.error x) := by
  obtain ⟨p, hp, rfl⟩ := List.mem_map.1 hid
  obtain ⟨n, hn, x, hx, rfl⟩ := Plan.exists_of_mem_invalidNodes listed hp
  obtain ⟨⟨id, n'⟩, hmem, rfl⟩ := List.mem_map.1 hn
  have hlookup : s.graph.lookup id = some n' := (SortedMap.mem_toList_iff _ _ _).1 hmem
  rw [← s.built.id_eq hlookup] at hlookup
  exact ⟨n', x, hlookup, by rw [s.planOf_eq_ofNode, hx]⟩

/-- **The list names exactly the nodes that cannot be planned.** -/
theorem mem_listed_iff {id : NodeId} {n : Node} (hn : s.graph.lookup id = some n) :
    id ∈ bad.map Prod.fst ↔ ∃ x, s.workload.planOf n = .error (.error x) := by
  constructor
  · intro hid
    obtain ⟨n', x, hn', hx⟩ := lookup_of_listed listed hid
    cases hn.symm.trans hn'
    exact ⟨x, hx⟩
  · rintro ⟨x, hx⟩
    have hmem : n ∈ s.graph.nodes.values :=
      List.mem_map.2 ⟨(id, n), (SortedMap.mem_toList_iff _ _ _).2 hn, rfl⟩
    obtain ⟨problem, hproblem, hbad⟩ := Plan.mem_invalidNodes listed n hmem
    rw [s.planOf_eq_ofNode] at hx
    rw [Plan.problem?, hx] at hproblem
    cases hproblem
    exact List.mem_map.2 ⟨_, hbad x rfl, s.built.id_eq hn⟩

end Setup

/-! ### Why a run breaks off -/

/-- A node that is not stuck cannot be planned, and the run does not forgive that. -/
def Setup.Refused (s : Setup) (x : ReplayError) : Prop :=
  ∃ id n, s.graph.lookup id = some n ∧ ¬s.Stuck id ∧ s.workload.planOf n = .error (.error x) ∧
    s.workload.forgives x = false

section

variable {κ : Type} [Kernel κ] {s : Setup} {m m' : Moment κ} {x : ReplayError}

/-- A drain comes to nodes only that are not stuck. -/
theorem Refuses.refused (hc : Coherent s m) (h : Refuses m (.error x) m') : s.Refused x := by
  cases h with
  | unknown queue missing => exact absurd missing (hc.lookup_front queue)
  | unplanned front bad unforgiven =>
      obtain ⟨hn, -, -, hunblocked⟩ := hc.front front
      rw [hc.planOf_eq] at bad
      rw [hc.forgives_eq] at unforgiven
      exact ⟨_, _, hn, Setup.not_stuck_of_unblocked hc.lifecycle.order hunblocked, bad, unforgiven⟩

/-- **Without tensor traffic a call that returns an error has come to a bad node.** -/
theorem Halts.refused (hc : Coherent s m) (untracked : s.config.trackMemory = false) {event : Event}
    (h : Halts event m (.error x) m') : s.Refused x := by
  cases h with
  | wake same offers refuses =>
      exact refuses.refused (hc.moves ((Move.of_offers offers).head (.wake m)))
  | unknown arrives missing =>
      obtain ⟨hrunning, -⟩ := hc.custody.of_arrives arrives
      obtain ⟨n, hn, -⟩ := hc.present_of_running hrunning
      cases missing.symm.trans hn
  | traffic closes tracked kind unforgiven => exact absurd (hc.untracked untracked) tracked
  | drain closes frees offers refuses =>
      exact refuses.refused (hc.moves ((Move.of_offers offers).head (.free frees) |>.head
        (.close closes)))
  | summary turn done idle bad =>
      have hnone := (hc.moves turn.moves).unfinished_eq_none done
      exact absurd hnone (Engine.unfinished_of_summarize bad)

end

namespace Setup

variable {s : Setup} {c : AnalyticalConfig} {m : Moment Analytical}

/-- Nothing is left to deliver. -/
def Idle (m : Moment Analytical) : Prop :=
  m.workload.isFinished = true ∨ m.kernel.next? = none

/-- **Why a whole run breaks off**: a counter leaves its range, no event is left, or the run comes to a
bad node. -/
theorem Breaks.reason (untracked : s.config.trackMemory = false) {stop : Stop}
    (h : s.Breaks c stop m) : (∃ f, stop = .fault f ∧ f.isOverflow = true) ∨
      (∃ left, stop = .error (.stalled left)) ∧ s.Rests c m ∧ Idle m ∨
      ∃ x, stop = .error x ∧ s.Refused x := by
  cases stop with
  | fault f => exact .inl ⟨f, rfl, h.isOverflow⟩
  | error x =>
      cases h with
      | fire halts =>
          exact .inr (.inr ⟨x, rfl, halts.refused (AtRest.initial s _).coherent untracked⟩)
      | next rests goesOn next halts =>
          exact .inr (.inr ⟨x, rfl, halts.refused (rests.coherent.1.withKernel _) untracked⟩)
      | stall rests goesOn none => exact .inr (.inl ⟨⟨_, rfl⟩, rests, .inr none⟩)

/-! ### What a run has come to -/

namespace Rests

variable (h : s.Rests c m) (idle : Idle m)

include h

/-- Stuck nodes have no record. -/
theorem not_stuck_of_record {id : NodeId} {r : Record}
    (hr : m.workload.statistics.records.find? id = some r) : ¬s.Stuck id := by
  obtain ⟨calls, -, -, hrest, -⟩ := h.atRest
  exact hrest.not_stuck_of_record hr

include idle

/-- **When nothing is left to deliver the nodes that are not stuck have ended.** -/
theorem ended_iff {id : NodeId} {n : Node} (hn : s.graph.lookup id = some n) :
    Record.ended m.workload.statistics.records id = true ↔ ¬s.Stuck id := by
  obtain ⟨calls, quiet, fired, hrest, hprepared⟩ := h.atRest
  have answered : Answered calls m.toEngine := fun event => by
    rcases idle with finished | none
    · exact hrest.not_outstanding finished event
    · rw [← hrest.delivered]
      exact hprepared.none none event
  exact hrest.ended_iff answered quiet fired ⟨n, hn⟩

/-- They were skipped, or could be planned. -/
theorem skips_or_planned {id : NodeId} {n : Node} (hn : s.graph.lookup id = some n)
    (unstuck : ¬s.Stuck id) : s.workload.Skips n ∨ ∃ plan, s.workload.planOf n = .ok plan := by
  obtain ⟨r, finish, hr, hfinish⟩ := Record.ended_iff.1 ((h.ended_iff idle hn).2 unstuck)
  obtain ⟨hmem, rfl⟩ := (s.built.lookup_iff id n).1 hn
  obtain ⟨-, hserved⟩ := h.onTime.served n hmem r finish hr hfinish
  by_cases hskips : s.workload.Skips n
  · exact .inl hskips
  · obtain ⟨plan, cost, planned, -⟩ := hserved hskips
    exact .inr ⟨plan, planned⟩

end Rests

/-! ### Skipped nodes -/

/-- Nodes without class are those of the invalid kind. -/
theorem nodeClass_eq_invalid_iff (n : Node) : n.nodeClass = .invalid ↔ n.kind = .invalid := by
  rw [Node.nodeClass]
  cases n.kind <;> cases n.onCpu <;> simp [NodeKind.toClass]

/-- A strict run skips no node that cannot be planned. -/
theorem planned_of_skips (strict : s.config.isStrict = true) {n : Node}
    (skips : s.workload.Skips n) : ∃ plan, s.workload.planOf n = .ok plan := by
  rcases skips with planned | ⟨x, -, forgiven⟩
  · exact ⟨_, planned⟩
  · rw [s.forgives_eq, strict] at forgiven
    cases forgiven

/-- A lenient run skips the invalid nodes and those that cannot be planned. -/
theorem skips_iff_of_lenient (lenient : s.config.isStrict = false) {id : NodeId} {n : Node}
    (hn : s.graph.lookup id = some n) :
    s.workload.Skips n ↔ n.kind = .invalid ∨ ∃ x, s.workload.planOf n = .error (.error x) := by
  have sound := s.workload.sound_planOf n
  refine or_congr ?_ (exists_congr fun x => and_iff_left_of_imp fun hx => ?_)
  · rw [← nodeClass_eq_invalid_iff]
    constructor
    · intro planned
      rw [planned] at sound
      exact sound.1.1 rfl
    · exact fun hclass => if_pos hclass
  · rw [s.forgives_eq, lenient, s.isLocal_of_planOf hn hx]
    rfl

/-- The records of a run that has skipped exactly the invalid and the bad nodes that are not stuck, and
has not come to stuck nodes. -/
def Sifted (s : Setup) (bad : List (NodeId × String)) (records : SortedMap NodeId Record) : Prop :=
  ∀ n ∈ s.trace, (s.Stuck n.id → records.find? n.id = none) ∧
    (¬s.Stuck n.id → ∃ r, records.find? n.id = some r ∧
      (r.operatorType = .invalid ↔ n.kind = .invalid ∨ n.id ∈ bad.map Prod.fst))

section

variable {bad : List (NodeId × String)}
variable (listed : Plan.invalidNodes s.config s.graph.tensorSizeOf s.graph.nodes.values = .ok bad)

include listed

/-- All bad nodes are stuck when a strict run has nothing left to deliver. -/
theorem Rests.stuck_of_listed (h : s.Rests c m) (idle : Idle m) (strict : s.config.isStrict = true) :
    ∀ id ∈ bad.map Prod.fst, s.Stuck id := by
  intro id hid
  obtain ⟨n, x, hn, hx⟩ := lookup_of_listed listed hid
  by_contra unstuck
  have hplan : ∃ plan, s.workload.planOf n = .ok plan :=
    (h.skips_or_planned idle hn unstuck).elim (planned_of_skips strict) fun planned => planned
  obtain ⟨plan, hplan⟩ := hplan
  cases hplan.symm.trans hx

/-- A strict run that comes to a bad node finds it on the list. -/
theorem Refused.exists_listed {x : ReplayError} (h : s.Refused x) :
    ∃ id ∈ bad.map Prod.fst, ¬s.Stuck id ∧ ∃ n, s.graph.lookup id = some n ∧
      Plan.ofNode s.config s.graph.tensorSizeOf n n.nodeClass = .error (.error x) := by
  obtain ⟨id, n, hn, unstuck, hx, -⟩ := h
  refine ⟨id, (mem_listed_iff listed hn).2 ⟨x, hx⟩, unstuck, n, hn, ?_⟩
  rw [← s.planOf_eq_ofNode, hx]

/-- A lenient run skips what is listed, as far as it comes to it. -/
theorem Rests.sifted (h : s.Rests c m) (idle : Idle m) (lenient : s.config.isStrict = false) :
    s.Sifted bad m.workload.statistics.records := by
  intro n hmem
  have hn := (s.built.lookup_iff n.id n).2 ⟨hmem, rfl⟩
  constructor
  · intro stuck
    by_contra hsome
    obtain ⟨r, hr⟩ := Option.ne_none_iff_exists'.1 hsome
    exact h.not_stuck_of_record hr stuck
  · intro unstuck
    obtain ⟨r, -, hr, -⟩ := Record.ended_iff.1 ((h.ended_iff idle hn).2 unstuck)
    refine ⟨r, hr, ?_⟩
    rw [h.coherent.1.operatorType_eq_invalid_iff hr hn, skips_iff_of_lenient lenient hn,
      mem_listed_iff listed hn]

end

/-- What a run says of a bad node concerns that node only. -/
theorem Refused.isLocal {x : ReplayError} (h : s.Refused x) : x.isLocal = true := by
  obtain ⟨id, n, hn, -, hx, -⟩ := h
  exact s.isLocal_of_planOf hn hx

/-- **The list of bad nodes foretells how a whole run ends**, unless a counter leaves its range.  A strict
run stops with an error other than a stall exactly if some node of the list is not stuck, and the error is
what is wrong with such a node.  A lenient run gives records to all nodes that are not stuck and to no
others, and skips exactly the invalid nodes and those of the list. -/
theorem preflight_agrees (s : Setup) (untracked : s.config.trackMemory = false)
    {bad : List (NodeId × String)}
    (listed : Plan.invalidNodes s.config s.graph.tensorSizeOf s.graph.nodes.values = .ok bad)
    (c : AnalyticalConfig) (j : Array Entry) :
    (s.config.isStrict = true → Ends Replay.run ⟨s.engine { config := c }, j⟩
      (fun _ _ => ∀ id ∈ bad.map Prod.fst, s.Stuck id)
      fun stop _ => (∃ f, stop = .fault f ∧ f.isOverflow = true) ∨ ∃ x, stop = .error x ∧
        ((∀ left, x ≠ .stalled left) ↔ ∃ id ∈ bad.map Prod.fst, ¬s.Stuck id) ∧
        ((∀ left, x ≠ .stalled left) →
          ∃ id ∈ bad.map Prod.fst, ¬s.Stuck id ∧ ∃ n, s.graph.lookup id = some n ∧
            Plan.ofNode s.config s.graph.tensorSizeOf n n.nodeClass = .error (.error x))) ∧
    (s.config.isStrict = false → Ends Replay.run ⟨s.engine { config := c }, j⟩
      (fun _ t => s.Sifted bad t.state.workload.statistics.records)
      fun stop t => (∃ f, stop = .fault f ∧ f.isOverflow = true) ∨
        (∃ left, stop = .error (.stalled left)) ∧
          s.Sifted bad t.state.workload.statistics.records) := by
  refine ⟨fun strict => Replay.ends_run_rests.imp ?_ ?_,
    fun lenient => Replay.ends_run_rests.imp ?_ ?_⟩
  · rintro tick t ⟨hfinish, -, m, rests, ht, -⟩
    rw [← ht] at hfinish
    exact rests.stuck_of_listed listed (.inl (by rw [Workload.isFinished, hfinish]; rfl)) strict
  · rintro stop t ⟨m, breaks, -⟩
    rcases breaks.reason untracked with hoverflow | ⟨⟨left, rfl⟩, rests, idle⟩ | ⟨x, rfl, refused⟩
    · exact .inl hoverflow
    · -- the run has come to a stand, and nothing on the list was in its way
      have hstuck := rests.stuck_of_listed listed idle strict
      refine .inr ⟨_, rfl, ⟨fun hne => absurd rfl (hne left), ?_⟩, fun hne => absurd rfl (hne left)⟩
      rintro ⟨id, hid, unstuck⟩
      exact absurd (hstuck id hid) unstuck
    · have hlisted := refused.exists_listed listed
      have hne (left : Nat) : x ≠ .stalled left := by
        rintro rfl
        cases refused.isLocal
      obtain ⟨id, hid, unstuck, -⟩ := id hlisted
      exact .inr ⟨x, rfl, ⟨fun _ => ⟨id, hid, unstuck⟩, fun _ => hne⟩, fun _ => hlisted⟩
  · rintro tick t ⟨hfinish, -, m, rests, ht, -⟩
    rw [← ht] at hfinish ⊢
    exact rests.sifted listed (.inl (by rw [Workload.isFinished, hfinish]; rfl)) lenient
  · rintro stop t ⟨m, breaks, ht⟩
    rcases breaks.reason untracked with hoverflow | ⟨hstalled, rests, idle⟩ | ⟨x, rfl, refused⟩
    · exact .inl hoverflow
    · rw [← ht]
      exact .inr ⟨hstalled, rests.sifted listed idle lenient⟩
    · -- a lenient run forgives whatever is wrong with a node
      have hlocal := refused.isLocal
      obtain ⟨id, n, -, -, -, unforgiven⟩ := refused
      rw [s.forgives_eq, lenient, hlocal] at unforgiven
      cases unforgiven

/-- A cycle of two computations with a bad node after it, a bad node that is free, and one node after
that. -/
@[irreducible] def tangle (validation : ValidationMode) : Setup :=
  let task (id : NodeId) (dataDeps : List NodeId) (attributes : Attributes) : Node :=
    { id, name := "task", kind := .compute, dataDeps, ctrlDeps := [], attributes }
  .ofTrace { validation } [
    task 1 [2] { runtime := some 3 },
    task 2 [1] { runtime := some 3 },
    task 3 [2] {},
    task 4 [] {},
    task 5 [4] { runtime := some 3 }] ⟨rfl, by cases validation <;> rfl, rfl⟩

/-- Two nodes of the tangle are bad, and one of them is stuck.  A strict run stops at the other one, a
lenient run skips it and stalls with the stuck ones. -/
theorem preflight_agrees_tangle :
    (∃ t, Replay.run ⟨(tangle .strict).engine { config := {} }, #[]⟩ =
        .error (.error (.missingAttribute 4 "runtime")) t ∧
      ∃ id ∈ [3, 4], ¬(tangle .strict).Stuck id) ∧
    ∃ t, Replay.run ⟨(tangle .lenient).engine { config := {} }, #[]⟩ =
        .error (.error (.stalled 3)) t ∧
      (tangle .lenient).Sifted [(3, (ReplayError.missingAttribute 3 "runtime").message),
        (4, (ReplayError.missingAttribute 4 "runtime").message)] t.state.workload.statistics.records := by
  have facts (validation : ValidationMode) : (tangle validation).config.trackMemory = false ∧
      Plan.invalidNodes (tangle validation).config (tangle validation).graph.tensorSizeOf
        (tangle validation).graph.nodes.values =
          .ok [(3, (ReplayError.missingAttribute 3 "runtime").message),
            (4, (ReplayError.missingAttribute 4 "runtime").message)] := by
    cases validation <;> decide +kernel
  have hmodes : (tangle .strict).config.isStrict = true ∧ (tangle .lenient).config.isStrict = false := by
    decide +kernel
  have hruns : Ends Replay.run ⟨(tangle .strict).engine ({ config := {} } : Analytical), #[]⟩
      (fun _ _ => False) fun stop _ => stop = .error (.missingAttribute 4 "runtime") := by
    decide +kernel
  have hruns' : Ends Replay.run ⟨(tangle .lenient).engine ({ config := {} } : Analytical), #[]⟩
      (fun _ _ => False) fun stop _ => stop = .error (.stalled 3) := by decide +kernel
  obtain ⟨strict, -⟩ := preflight_agrees _ (facts .strict).1 (facts .strict).2 {} #[]
  obtain ⟨-, lenient⟩ := preflight_agrees _ (facts .lenient).1 (facts .lenient).2 {} #[]
  constructor
  · obtain ⟨_, t, hrun, rfl⟩ := hruns.exists_error
    rcases (strict hmodes.1).of_error hrun with ⟨f, ⟨⟩, -⟩ | ⟨x, ⟨⟩, hiff, -⟩
    exact ⟨t, hrun, hiff.1 fun left => by simp⟩
  · obtain ⟨_, t, hrun, rfl⟩ := hruns'.exists_error
    rcases (lenient hmodes.2).of_error hrun with ⟨f, ⟨⟩, -⟩ | ⟨-, hsifted⟩
    exact ⟨t, hrun, hsifted⟩

end Setup

end TraceReplay
