/-
**When planning and costing leave the range of counters.**

Two sums are not guarded: the bytes that a computation under the roofline model touches, and the latency
of a collective, one hop for each step and each dimension.  Everything else that a node is planned and
costed with is a counter by itself, or stops at the greatest one.  So planning a node and asking the
analytical kernel for what its plan comes to faults exactly if one of the two sums leaves the range; else
planning gives a plan or an error, and the completion is due at a tick, the last one at the latest.

Main definitions:

* `Setup.Reaches` — the moments of all runs, between the calls and within them;
* `Work.Counted` — the numbers of a request are counters;
* `Work.ask`, `Work.latency` — asking the analytical kernel, and the latency that is added up for that.

Main results:

* `Run.reaches` — runs reach no other moments;
* `Plan.counted_work` — plans of nodes in range ask for work in range;
* `Work.ends_ask` — how the analytical kernel takes work;
* `Setup.Reaches.overflows_iff` — **planning and costing fault exactly if one of the two sums leaves the
  range**.
-/

import TraceReplay.Proofs.Preflight
import TraceReplay.Proofs.Requests
import TraceReplay.Proofs.Touched
import TraceReplay.Proofs.Trace.Format

set_option relaxedAutoImplicit false
set_option autoImplicit false

namespace TraceReplay

open Relation
open TraceReplay.Action

/-! ### The moments of all runs -/

section

variable {κ : Type} [Kernel κ] {s : Setup}

/-- The moments of all runs, between the calls and within them. -/
inductive Setup.Reaches (s : Setup) : Moment κ → Prop
  | start (k : κ) : Reaches s (s.moment k)
  | later {m : Moment κ} {k : κ} (reached : Reaches s m)
      (later : Kernel.now m.kernel ≤ Kernel.now k) : Reaches s { m with kernel := k }
  | move {m m' : Moment κ} (reached : Reaches s m) (move : Move m m') : Reaches s m'

theorem Setup.Reaches.coherent {m : Moment κ} (h : s.Reaches m) : Coherent s m := by
  induction h with
  | start k => exact (AtRest.initial s k).coherent
  | later _ _ ih => exact ih.withKernel _
  | move _ move ih => exact ih.move move

theorem Setup.Reaches.moves {m m' : Moment κ} (h : s.Reaches m) (moves : ReflTransGen Move m m') :
    s.Reaches m' := by
  induction moves with
  | refl => exact h
  | tail _ move ih => exact .move ih move

/-- **Runs reach no other moments.** -/
theorem Run.reaches {calls : List Call} {e : Engine κ} (run : Run s calls e) :
    ∃ m, m.toEngine = e ∧ s.Reaches m := by
  induction run with
  | start k => exact ⟨s.moment k, rfl, .start k⟩
  | @returns calls e k event j t run later conforms call ih =>
      obtain ⟨m, rfl, h⟩ := ih
      obtain ⟨m', hmoves, ht⟩ := Engine.moves_of_ok (m := { m with kernel := k }) call
      exact ⟨m', ht, (h.later later).moves hmoves⟩
  | @fails calls e k event j t x run later conforms call ih =>
      obtain ⟨m, rfl, h⟩ := ih
      obtain ⟨-, m', halts, ht⟩ := Engine.halts_of_error (m := { m with kernel := k }) call
      have hlater := h.later later
      exact ⟨m', ht, hlater.moves (halts.moves hlater.coherent).1⟩

end

/-! ### Numbers in range -/

theorem EngineConfig.replayTicks_lt (c : EngineConfig) (runtime : Nat) :
    c.replayTicks runtime < Counter.limit := by
  rw [replayTicks]
  split
  · decide
  · rw [Counter.mulClamped]
    exact Nat.lt_of_le_of_lt (Nat.min_le_right _ _) (by decide)

/-- The hops of a collective: its steps, and the dimensions that it involves. -/
def AnalyticalConfig.hops (request : CollectiveRequest) (npus : Nat) : Nat :=
  Binary64.toCounter (ringShare request.kind (Binary64.ofCounter (max npus 1))).2 +
    (request.involvedDims.filter id).length

namespace Work

/-- The durations and the bytes of a request are counters. -/
def Counted : Work → Prop
  | .operation (.timed duration) => duration < Counter.limit
  | .operation (.remoteMemory _) => True
  | .operation (.send t) | .operation (.receive t) => t.size * t.datatype.width < Counter.limit
  | .gathering (.timed duration) => duration < Counter.limit
  | .gathering (.collective _) => True

/-- Asks the analytical kernel for work, under a token if it is an operation. -/
def ask (token : Token) : Work → Action Fault Analytical Unit
  | .operation what => Analytical.start token what
  | .gathering what => do
      let _ ← Analytical.gather what
      return

/-- The latency that is added up to cost a request: one hop for each step of a collective, and for each
dimension that it involves. -/
def latency (c : AnalyticalConfig) : Work → Nat
  | .operation _ => 0
  | .gathering (.timed _) => 0
  | .gathering (.collective request) =>
      AnalyticalConfig.hops request (Analytical.participants c request) * c.linkLatency

end Work

namespace Plan

variable {c : EngineConfig} {sizeOf : NodeId → Option Nat} {n : Node} {plan : Plan}
variable {roofline : Option Roofline} {group : Option Group}

theorem elapsed_lt_of_estimate {r : Roofline} {numOps ioSize : Nat} {estimate : Estimate}
    (h : r.estimate numOps ioSize = .ok estimate) : estimate.elapsed < Counter.limit := by
  unfold Roofline.estimate at h
  split at h
  · cases h
  · cases h
    exact Binary64.toCounter_lt _

theorem ok_of_toOption {ε α : Type} {x : Except ε α} {a : α} (h : x.toOption = some a) :
    x = .ok a := by
  cases x with
  | error e => cases h
  | ok a' => cases h; rfl

theorem eq_some_of_require {α : Type} {name : String} {value : Option α} {a : α}
    (h : require n name value = .ok a) : value = some a := by
  cases value with
  | none => cases h
  | some a' => cases h; rfl

/-- A transfer of as many bytes as elements. -/
theorem bytes_lt (counted : n.Counted) {size : Nat}
    (h : require n "comm_size" n.attributes.commSize = .ok size) :
    size * DataType.uint8.width < Counter.limit := by
  have hlt := counted.commSize size (eq_some_of_require h)
  rwa [← Nat.mul_one size] at hlt

/-- **The plans of a node in range ask for work in range.** -/
theorem counted_work (counted : n.Counted) {nodeClass : NodeClass}
    (planned : ofNode c sizeOf n nodeClass = .ok plan) :
    ∀ work, plan.work? roofline group = some work → work.Counted := by
  refine ofNode_cases (P := fun x => ∀ plan, x = .ok plan →
    ∀ work, plan.work? roofline group = some work → work.Counted) ?_ ?_ ?_ ?_ ?_ ?_ ?_ ?_ plan planned
  · rintro - _ ⟨⟩ _ ⟨⟩
  · rintro p hp work hwork
    obtain ⟨runtime, -, hp⟩ := exists_of_bind_ok (ok_of_orError hp)
    cases hp
    cases hwork
    exact c.replayTicks_lt runtime
  · rintro - p hp work hwork
    obtain ⟨numOps, -, hp⟩ := exists_of_bind_ok hp
    obtain ⟨own, -, hp⟩ := exists_of_bind_ok hp
    obtain ⟨size, -, hp⟩ := exists_of_bind_ok hp
    split at hp
    · cases hp
    · cases hp
      obtain ⟨estimate, hestimate, rfl⟩ := Option.map_eq_some_iff.1 hwork
      obtain ⟨r, -, hr⟩ := Option.bind_eq_some_iff.1 hestimate
      exact elapsed_lt_of_estimate (ok_of_toOption hr)
  · rintro _ _ ⟨⟩
  · rintro p hp work hwork
    obtain ⟨loc, -, hp⟩ := exists_of_bind_ok (ok_of_orError hp)
    obtain ⟨size, -, hp⟩ := exists_of_bind_ok hp
    cases hp
    cases hwork
    trivial
  · rintro p hp work hwork
    obtain ⟨kind, -, hp⟩ := exists_of_bind_ok (ok_of_orError hp)
    obtain ⟨size, -, hp⟩ := exists_of_bind_ok hp
    by_cases hsupported : kind.isSupported = true
    · by_cases hprimitive : kind.hasPrimitive = true
      · simp only [hsupported, hprimitive] at hp
        cases hp
        cases hwork
        trivial
      · simp only [hsupported, hprimitive] at hp
        cases hp
        cases hwork
        exact c.replayTicks_lt _
    · simp only [hsupported] at hp
      cases hp
  · rintro p hp work hwork
    obtain ⟨destination, -, hp⟩ := exists_of_bind_ok (ok_of_orError hp)
    obtain ⟨size, hsize, hp⟩ := exists_of_bind_ok hp
    cases hp
    cases hwork
    exact bytes_lt counted hsize
  · rintro p hp work hwork
    obtain ⟨source, -, hp⟩ := exists_of_bind_ok (ok_of_orError hp)
    obtain ⟨size, hsize, hp⟩ := exists_of_bind_ok hp
    cases hp
    cases hwork
    exact bytes_lt counted hsize

end Plan

/-! ### Costs -/

namespace AnalyticalConfig

variable (c : AnalyticalConfig)

theorem transferCost_lt (latency : Tick) (bytes bandwidth : Float) :
    transferCost latency bytes bandwidth < Counter.limit := Counter.addClamped_lt _ _

/-- **A collective is costed if the latency of its hops is a counter**, and faults otherwise. -/
theorem collectiveCost_cases (request : CollectiveRequest) (npus : Nat) :
    hops request npus * c.linkLatency < Counter.limit ∧
        (∃ cost, c.collectiveCost request npus = .ok cost ∧ cost < Counter.limit) ∨
      Counter.limit ≤ hops request npus * c.linkLatency ∧
        ∃ f, c.collectiveCost request npus = .error f ∧ f.isOverflow = true := by
  have hcost : c.collectiveCost request npus = (do
      let steps ← Counter.mul (Binary64.toCounter
        (ringShare request.kind (Binary64.ofCounter (max npus 1))).2) c.linkLatency
      let extra ← Counter.mul (request.involvedDims.filter id).length c.linkLatency
      let latency ← Counter.add steps extra
      return transferCost latency (Binary64.ofCounter request.size *
        (ringShare request.kind (Binary64.ofCounter (max npus 1))).1) c.linkBandwidth) := rfl
  rw [hcost, hops, Nat.add_mul]
  generalize Binary64.toCounter _ = steps
  generalize (request.involvedDims.filter id).length = dims
  by_cases hlt : steps * c.linkLatency + dims * c.linkLatency < Counter.limit
  · -- with the sum both products are in range
    have hsteps : steps * c.linkLatency < Counter.limit :=
      Nat.lt_of_le_of_lt (Nat.le_add_right _ _) hlt
    have hdims : dims * c.linkLatency < Counter.limit :=
      Nat.lt_of_le_of_lt (Nat.le_add_left _ _) hlt
    rw [Counter.mul_of_lt hsteps, Counter.mul_of_lt hdims]
    simp only [bind, Except.bind, Counter.add_of_lt hlt]
    exact .inl ⟨hlt, _, rfl, transferCost_lt _ _ _⟩
  · refine .inr ⟨Nat.not_lt.1 hlt, ?_⟩
    by_cases hsteps : steps * c.linkLatency < Counter.limit
    · by_cases hdims : dims * c.linkLatency < Counter.limit
      · rw [Counter.mul_of_lt hsteps, Counter.mul_of_lt hdims]
        simp only [bind, Except.bind, Counter.add_of_le (Nat.not_lt.1 hlt)]
        exact ⟨_, rfl, rfl⟩
      · rw [Counter.mul_of_lt hsteps, Counter.mul, if_neg hdims]
        exact ⟨_, rfl, rfl⟩
    · rw [Counter.mul, if_neg hsteps]
      exact ⟨_, rfl, rfl⟩

end AnalyticalConfig

/-! ### Asking the analytical kernel -/

namespace Analytical

/-- One more event is due, after a cost, and at the last tick if the clock does not go that far. -/
def Owes (k k' : Analytical) : Prop :=
  ∃ cost event, cost < Counter.limit ∧
    k'.queue.Perm (⟨Counter.addClamped k.now cost, k.requests, event⟩ :: k.queue)

theorem owes_schedule (k : Analytical) {cost : Tick} (h : cost < Counter.limit) (event : Event) :
    Owes k (k.schedule cost event) :=
  ⟨cost, event, h, enqueue_perm _ _⟩

theorem operationCost_of_counted (c : AnalyticalConfig) {operation : Operation}
    (counted : (Work.operation operation).Counted) :
    ∃ cost, operationCost c operation = .ok cost ∧ cost < Counter.limit := by
  cases operation with
  | timed duration => exact ⟨duration, rfl, counted⟩
  | remoteMemory size => exact ⟨_, rfl, AnalyticalConfig.transferCost_lt _ _ _⟩
  | send t =>
      have hbytes : t.bytes = .ok _ := Counter.mul_of_lt counted
      rw [operationCost, hbytes]
      exact ⟨_, rfl, AnalyticalConfig.transferCost_lt _ _ _⟩
  | receive t =>
      have hbytes : t.bytes = .ok _ := Counter.mul_of_lt counted
      rw [operationCost, hbytes]
      exact ⟨_, rfl, AnalyticalConfig.transferCost_lt _ _ _⟩

theorem gatheringCost_of_counted (c : AnalyticalConfig) {gathering : Gathering}
    (counted : (Work.gathering gathering).Counted) :
    (Work.gathering gathering).latency c < Counter.limit ∧
        (∃ cost, gatheringCost c gathering = .ok cost ∧ cost < Counter.limit) ∨
      Counter.limit ≤ (Work.gathering gathering).latency c ∧
        ∃ f, gatheringCost c gathering = .error f ∧ f.isOverflow = true := by
  cases gathering with
  | timed duration => exact .inl ⟨by simp only [Work.latency]; decide, duration, rfl, counted⟩
  | collective request => exact c.collectiveCost_cases request (participants c request)

end Analytical

/-- **How the analytical kernel takes work.**  It faults if the latency that is added up is no counter,
and else the completion is due. -/
theorem Work.ends_ask {work : Work} (counted : work.Counted) (k : Analytical) (token : Token)
    (j : Array Entry) :
    Ends (work.ask token) ⟨k, j⟩
      (fun _ t => work.latency k.config < Counter.limit ∧ Analytical.Owes k t.state)
      fun f _ => Counter.limit ≤ work.latency k.config ∧ f.isOverflow = true := by
  cases work with
  | operation what =>
      obtain ⟨cost, hcost, hlt⟩ := Analytical.operationCost_of_counted k.config counted
      simp only [ask, Analytical.start, ends_bind, ends_get, hcost, ends_lift_ok]
      exact ends_forM_note _ fun j' =>
        ⟨by simp only [latency]; decide, Analytical.owes_schedule k hlt _⟩
  | gathering what =>
      simp only [ask, Analytical.gather, ends_bind, ends_get]
      rcases Analytical.gatheringCost_of_counted k.config counted with
        ⟨hlatency, cost, hcost, hlt⟩ | ⟨hlatency, f, hcost, hf⟩
      · simp only [hcost, ends_lift_ok]
        exact ends_forM_note _ fun j' =>
          ⟨hlatency, Analytical.owes_schedule { k with nextHandle := k.nextHandle + 1 } hlt _⟩
      · simp only [hcost, ends_lift_error]
        exact ⟨hlatency, hf⟩

/-! ### The two sums -/

/-- A plan with something to simulate asks for work. -/
theorem Plan.exists_work {c : EngineConfig} {sizeOf : NodeId → Option Nat} {n : Node} {plan : Plan}
    (planned : ofNode c sizeOf n n.nodeClass = .ok plan) (busy : plan ≠ .skip)
    (group : Option Group) : ∃ work, plan.work? c.roofline group = some work := by
  have hsound := sound_ofNode c sizeOf n n.nodeClass
  rw [planned] at hsound
  cases plan with
  | skip => exact absurd rfl busy
  | operation what => exact ⟨_, rfl⟩
  | roofline numOps size =>
      obtain ⟨hmodel, hops, hsize⟩ := hsound.2 numOps size rfl
      obtain ⟨r, hr⟩ := Option.isSome_iff_exists.1 hmodel
      have hestimate : (r.estimate numOps size) = .ok _ := if_neg (not_or.2 ⟨hops, hsize⟩)
      simp only [work?, estimate?, hr, Option.bind_some, hestimate]
      exact ⟨_, rfl⟩
  | collective kind size involvedDims priority => exact ⟨_, rfl⟩
  | timedCollective duration => exact ⟨_, rfl⟩

/-- **Planning and costing fault exactly if one of the two sums leaves the range.**  At every moment of
every run, planning a node of the trace faults if the bytes that it touches under the roofline model are
no counter.  If there is a plan and it does not skip the node, it asks for work, which faults on the
analytical kernel, whatever its parameters and whatever it has taken before, if the latency of its hops is
no counter.  Otherwise the completion is due, at the last tick at the latest. -/
theorem Setup.Reaches.overflows_iff {κ : Type} [Kernel κ] {s : Setup} {m : Moment κ}
    (reached : s.Reaches m) {n : Node} (hn : n ∈ s.trace) (counted : n.Counted) :
    (∀ f, m.workload.planOf n = .error (.fault f) ↔
      f = .sumTooLarge ∧ n.ByRoofline s.config ∧
        Counter.limit ≤ Plan.touched s.graph.tensorSizeOf n) ∧
    ∀ plan, m.workload.planOf n = .ok plan → plan ≠ .skip →
      ∃ work, plan.work? s.config.roofline s.workload.group = some work ∧
        ∀ k token j, Ends (work.ask token) ⟨k, j⟩
          (fun _ t => work.latency k.config < Counter.limit ∧ Analytical.Owes k t.state)
          fun f _ => Counter.limit ≤ work.latency k.config ∧ f.isOverflow = true := by
  have hplan : m.workload.planOf n = Plan.ofNode s.config s.graph.tensorSizeOf n n.nodeClass :=
    (reached.coherent.planOf_eq m.workload.graph.ready n).trans (s.planOf_eq_ofNode n)
  rw [hplan]
  refine ⟨fun f => ?_, fun plan planned busy => ?_⟩
  · rw [Plan.ofNode_eq_fault_iff (Setup.known_of_mem hn)]
    refine and_congr_right fun _ => and_congr_right fun _ => and_iff_right_of_imp fun hlarge => ?_
    -- the tensor of the node alone is a counter
    rintro halone
    rw [Plan.touched, halone] at hlarge
    exact absurd counted.tensorSize_lt (Nat.not_lt.2 hlarge)
  · obtain ⟨work, hwork⟩ := Plan.exists_work planned busy s.workload.group
    exact ⟨work, hwork, Work.ends_ask (Plan.counted_work counted planned work hwork)⟩

/-- A computation whose tensor takes half of the range. -/
def Node.bulky (id : NodeId) (dataDeps : List NodeId) : Node :=
  { id, name := "bulky", kind := .compute, dataDeps, ctrlDeps := []
    attributes := { numOps := some 1, tensorSize := some 9223372036854775808 } }

/-- A small collective. -/
def Node.ring (id : NodeId) : Node :=
  { id, name := "ring", kind := .collective, dataDeps := [], ctrlDeps := []
    attributes := { commType := some .allReduce, commSize := some 8 } }

/-- Two computations under the roofline model, one of which depends on the other, and a collective. -/
@[irreducible] def Setup.heavy : Setup :=
  .ofTrace { roofline := some ⟨1, 1⟩ } [.bulky 1 [], .bulky 2 [1], .ring 3]

/-- The second computation touches too much.  The work of the collective faults on links that take half of
the range for a hop, and is taken on the usual ones. -/
theorem Setup.Reaches.overflows_iff_heavy :
    Setup.heavy.workload.planOf (.bulky 2 [1]) = .error (.fault .sumTooLarge) ∧
    ∃ plan work, Setup.heavy.workload.planOf (.ring 3) = .ok plan ∧
      plan.work? Setup.heavy.config.roofline Setup.heavy.workload.group = some work ∧
      Ends (work.ask ⟨0⟩) ⟨{ config := { linkLatency := 9223372036854775808 } }, #[]⟩
        (fun _ _ => False) (fun f _ => f.isOverflow = true) ∧
      Ends (work.ask ⟨0⟩) ⟨{ config := {} }, #[]⟩
        (fun _ t => Analytical.Owes { config := {} } t.state) fun _ _ => False := by
  have htrace : Setup.heavy.trace = [.bulky 1 [], .bulky 2 [1], .ring 3] := by
    rw [Setup.heavy]
    rfl
  have hmem : Node.bulky 2 [1] ∈ Setup.heavy.trace ∧ Node.ring 3 ∈ Setup.heavy.trace := by
    simp [htrace]
  have hbulky : (Node.bulky 2 [1]).Counted :=
    ⟨by rintro _ ⟨⟩; decide, by rintro _ ⟨⟩⟩
  have hring : (Node.ring 3).Counted := ⟨by rintro _ ⟨⟩, by rintro _ ⟨⟩; decide⟩
  have hmodel : Setup.heavy.config.replayOnly = false ∧
      Setup.heavy.config.roofline.isSome = true := by decide +kernel
  have htouched : Counter.limit ≤
      Plan.touched Setup.heavy.graph.tensorSizeOf (.bulky 2 [1]) := by decide +kernel
  have hplanned : Setup.heavy.workload.planOf (.ring 3) =
      .ok (.collective .allReduce 8 [true] 0) := by decide +kernel
  -- nothing has happened yet, and the kernel is an analytical one without requests
  have start := Setup.Reaches.start (s := Setup.heavy) ({ config := {} } : Analytical)
  obtain ⟨hfault, -⟩ := Setup.Reaches.overflows_iff start hmem.1 hbulky
  obtain ⟨-, hask⟩ := Setup.Reaches.overflows_iff start hmem.2 hring
  obtain ⟨work, hwork, hask⟩ := hask _ hplanned (by decide)
  refine ⟨(hfault _).2 ⟨rfl, ⟨hmodel.1, hmodel.2, rfl, ⟨1, rfl, by decide⟩, rfl⟩, htouched⟩,
    _, work, hplanned, hwork, ?_, ?_⟩
  · refine (hask { config := { linkLatency := 9223372036854775808 } } ⟨0⟩ #[]).imp ?_
      fun _ _ h => h.2
    rintro _ _ ⟨hsmall, -⟩
    cases hwork
    exact absurd hsmall (by decide +kernel)
  · refine (hask { config := {} } ⟨0⟩ #[]).imp (fun _ _ h => h.2) ?_
    rintro _ _ ⟨hlarge, -⟩
    cases hwork
    exact absurd hlarge (by decide +kernel)

/-- With such links, which are not refused, the run faults at once. -/
theorem Setup.run_heavy :
    ({ linkLatency := 9223372036854775808 } : AnalyticalConfig).validate = .ok () ∧
    Ends Replay.run
      ⟨Setup.heavy.engine { config := { linkLatency := 9223372036854775808 } }, #[]⟩
      (fun _ _ => False) (fun stop _ => stop = .fault .productTooLarge) ∧
    Setup.heavy.workload.planOf (.bulky 2 [1]) = .error (.fault .sumTooLarge) := by
  decide +kernel

end TraceReplay
