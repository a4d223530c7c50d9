/-
**Waiting is explained by a full resource.**

Whenever a whole run rests, the nodes left in the queue are blocked, and the nodes that hold the slots of
their resource are in flight.  Read in hindsight, this holds at every tick: a node whose parents had
ended and that had not started found its resource full.  A node of a class without resource therefore
starts when the last of its parents ends, and if there are as many slots as nodes all nodes do; the run
then lasts as long as its longest chain of dependencies.

Main definitions:

* `readyAt` — the last end of a node's parents;
* `spanOf` — the duration of a node, by its record;
* `Setup.Chain` — a chain of dependencies.

Main results:

* `Setup.Rests.waiting` — **a node that waits at a tick finds its resource full at that tick**;
* `Setup.Rests.start_eq_readyAt` — with as many slots as nodes none waits;
* `Timing.sum_le_finish`, `Setup.Rests.exists_chain` — chains last no longer than until the end of their
  last node, and without waiting some chain lasts as long;
* `Replay.waiting_explained` — the three together, for whole runs.
-/

import Mathlib.Order.Bounds.Basic
import TraceReplay.Proofs.WallTime

set_option relaxedAutoImplicit false
set_option autoImplicit false

namespace TraceReplay

open TraceReplay.Action

/-- The tick at which the last parent of a node ended; it is zero without parents. -/
def readyAt (records : SortedMap NodeId Record) (n : Node) : Tick :=
  (n.distinctParents.filterMap fun p => (records.find? p).bind Record.finish).foldl max 0

/-! ### Who waits at a tick -/

/-- From now on the nodes in flight are the active ones. -/
theorem Timing.active_eq_running {g₀ : Graph} {capacity : Capacity}
    {records : SortedMap NodeId Record} {now t : Tick} (h : Timing g₀ capacity records now)
    (ht : now ≤ t) (r : Resource) : activeOn g₀ records r t = runningOn g₀ records r := by
  refine Nat.le_antisymm (h.active_le_running ht r) (SortedMap.count_le_of_imp ?_)
  intro id record hrecord hrunning
  rw [Bool.and_eq_true] at hrunning ⊢
  have hbegun := Nat.le_trans (h.begun id record hrecord) ht
  refine ⟨hrunning.2, ?_⟩
  simp [Record.activeAt, hbegun, Option.isNone_iff_eq_none.1 hrunning.1]

namespace Setup.Rests

variable {s : Setup} {c : AnalyticalConfig} {m : Moment Analytical} {n : Node} {t : Tick}

/-- A node that is left in the queue while a run rests finds its resource full. -/
theorem full_of_ready (h : s.Rests c m) (hn : s.graph.lookup n.id = some n)
    (hready : n.id ∈ m.workload.graph.ready) : ∃ r, Resource.ofClass? n.nodeClass = some r ∧
      runningOn s.graph m.workload.statistics.records r = s.config.resources.get r := by
  obtain ⟨hc, hunfreed⟩ := h.coherent
  have hfull := h.blocked n.id n hready hn
  rw [← Bool.not_eq_true, SlotPool.hasRoom_iff] at hfull
  simp only [not_forall, Nat.not_lt] at hfull
  obtain ⟨r, hr, hle⟩ := hfull
  have htaken := hc.slots.taken r
  rw [hunfreed, List.countP_nil, Nat.add_zero] at htaken
  rw [hc.slots.capacity_eq, htaken] at hle
  exact ⟨r, hr, Nat.le_antisymm (hc.running_le r) hle⟩

/-- **A node that waits at a tick finds its resource full at that tick**: if its parents had ended and
it had not started, all slots of its resource were taken by active nodes. -/
theorem waiting (h : s.Rests c m) (ht : t < m.kernel.now) (hn : s.graph.lookup n.id = some n)
    (hparents : ∀ p ∈ n.parents, Record.endedBy m.workload.statistics.records t p = true)
    (hwaits : Record.startedBy m.workload.statistics.records t n.id = false) :
    ∃ r, Resource.ofClass? n.nodeClass = some r ∧
      activeOn s.graph m.workload.statistics.records r t = s.config.resources.get r := by
  obtain ⟨m₀, rests, -, -, hseen⟩ := h.seen ht
  obtain ⟨calls, quiet, -, hrest, -⟩ := rests.atRest
  -- when the run rested last the node was in the queue
  have hunblocked : s.graph.Unblocked m₀.workload.graph.freed n.id := by
    refine ⟨n, hn, fun p hp => (hrest.freed_iff quiet p).2 ?_⟩
    rw [← (hseen p).2]
    exact hparents p hp
  have hnone : m₀.workload.statistics.records.find? n.id = none := by
    rw [(hseen n.id).1, Option.isSome_eq_false_iff, Option.isNone_iff_eq_none] at hwaits
    exact hwaits
  obtain ⟨r, hr, hrunning⟩ :=
    rests.full_of_ready hn ((hrest.ready_iff quiet n.id).2 ⟨hunblocked, hnone⟩)
  refine ⟨r, hr, ?_⟩
  have hnow := rests.punctual.seen_now (Nat.le_refl _)
  rw [← hrunning, ← Timing.active_eq_running rests.punctual (Nat.le_refl _)]
  exact activeOn_congr (fun id => (hseen id).1.trans (hnow id).1.symm)
    fun id => (hseen id).2.trans (hnow id).2.symm

/-! ### When nodes start -/

variable (h : s.Rests c m) (hn : n ∈ s.trace) {r : Record}
variable (hr : m.workload.statistics.records.find? n.id = some r)

include h hn hr

/-- The parents of a node with a record ended before it started. -/
theorem finish_of_parent {p : NodeId} (hp : p ∈ n.parents) : ∃ rp finish,
    m.workload.statistics.records.find? p = some rp ∧ rp.finish = some finish ∧ finish ≤ r.start :=
  h.punctual.ordered n.id r n hr ((s.built.lookup_iff n.id n).2 ⟨hn, rfl⟩) p hp

theorem finish_le_readyAt {p : NodeId} (hp : p ∈ n.parents) : ∃ rp finish,
    m.workload.statistics.records.find? p = some rp ∧ rp.finish = some finish ∧
      finish ≤ readyAt m.workload.statistics.records n := by
  obtain ⟨rp, finish, hrp, hfinish, -⟩ := h.finish_of_parent hn hr hp
  refine ⟨rp, finish, hrp, hfinish, Counter.le_foldl_max 0 (List.mem_filterMap.2 ⟨p, ?_, ?_⟩)⟩
  · exact Node.mem_distinctParents.2 hp
  · rw [hrp]
    exact hfinish

/-- A node starts when its parents have ended, or later. -/
theorem readyAt_le_start : readyAt m.workload.statistics.records n ≤ r.start := by
  refine Counter.foldl_max_le_iff.2 ⟨Nat.zero_le _, fun finish hmem => ?_⟩
  obtain ⟨p, hp, hfinish⟩ := List.mem_filterMap.1 hmem
  obtain ⟨rp, finish', hrp, hfinish', hle⟩ := h.finish_of_parent hn hr (Node.mem_distinctParents.1 hp)
  rw [hrp] at hfinish
  cases hfinish.symm.trans hfinish'
  exact hle

/-- From the end of its last parent until it starts a node waits for its resource. -/
theorem full_while_waiting (hle : readyAt m.workload.statistics.records n ≤ t) (hlt : t < r.start) :
    ∃ resource, Resource.ofClass? n.nodeClass = some resource ∧
      activeOn s.graph m.workload.statistics.records resource t = s.config.resources.get resource := by
  have hbegun : r.start ≤ m.kernel.now := h.punctual.begun n.id r hr
  refine h.waiting (Nat.lt_of_lt_of_le hlt hbegun) ((s.built.lookup_iff n.id n).2 ⟨hn, rfl⟩) ?_ ?_
  · intro p hp
    obtain ⟨rp, finish, hrp, hfinish, hready⟩ := h.finish_le_readyAt hn hr hp
    exact Record.endedBy_iff.2 ⟨rp, finish, hrp, hfinish, Nat.le_trans hready hle⟩
  · rw [Record.startedBy, hr]
    simpa using hlt

/-- A node of a class without resource does not wait. -/
theorem start_eq_of_ofClass_none (hclass : Resource.ofClass? n.nodeClass = none) :
    r.start = readyAt m.workload.statistics.records n := by
  refine Nat.le_antisymm (Nat.le_of_not_lt fun hlt => ?_) (h.readyAt_le_start hn hr)
  obtain ⟨resource, hresource, -⟩ := h.full_while_waiting hn hr (Nat.le_refl _) hlt
  rw [hclass] at hresource
  cases hresource

/-- A node that has not started yet is not among the active ones. -/
theorem activeOn_lt_length (hlt : t < r.start) (resource : Resource) :
    activeOn s.graph m.workload.statistics.records resource t < s.trace.length := by
  rw [activeOn, ← SortedMap.ncard_setOf]
  -- they are nodes of the trace other than this one
  let ids : Finset NodeId := ((s.trace.map Node.id).toFinset).erase n.id
  have hsubset : {id | ∃ record, m.workload.statistics.records.find? id = some record ∧
      (resourceOf s.graph id = some resource && record.activeAt t) = true} ⊆ (ids : Set NodeId) := by
    rintro id ⟨record, hrecord, hactive⟩
    obtain ⟨n', hn', rfl⟩ := h.mem_trace_of_record hrecord
    refine Finset.mem_coe.2 (Finset.mem_erase.2 ⟨fun heq => ?_, ?_⟩)
    · rw [heq, hr] at hrecord
      cases hrecord
      simp [Record.activeAt, Nat.not_le.2 hlt] at hactive
    · exact List.mem_toFinset.2 (List.mem_map_of_mem hn')
  have hmem : n.id ∈ (s.trace.map Node.id).toFinset := List.mem_toFinset.2 (List.mem_map_of_mem hn)
  have hlength := (s.trace.map Node.id).toFinset_card_le
  rw [List.length_map] at hlength
  calc _ ≤ (ids : Set NodeId).ncard := Set.ncard_le_ncard hsubset (Finset.finite_toSet _)
    _ = ids.card := Set.ncard_coe_finset _
    _ < (s.trace.map Node.id).toFinset.card := Finset.card_erase_lt_of_mem hmem
    _ ≤ s.trace.length := hlength

/-- **With as many slots as nodes none waits**: it would have to wait for as many others. -/
theorem start_eq_readyAt (roomy : ∀ resource, s.trace.length ≤ s.config.resources.get resource) :
    r.start = readyAt m.workload.statistics.records n := by
  refine Nat.le_antisymm (Nat.le_of_not_lt fun hlt => ?_) (h.readyAt_le_start hn hr)
  obtain ⟨resource, -, hfull⟩ := h.full_while_waiting hn hr (Nat.le_refl _) hlt
  have hactive := h.activeOn_lt_length hn hr hlt resource
  rw [hfull] at hactive
  exact absurd hactive (Nat.not_lt.2 (roomy resource))

end Setup.Rests

/-! ### Chains of dependencies -/

/-- The duration of a node, by its record. -/
def spanOf (records : SortedMap NodeId Record) (id : NodeId) : Tick :=
  ((records.find? id).bind fun r => r.finish.map fun finish => finish - r.start).getD 0

theorem spanOf_eq {records : SortedMap NodeId Record} {id : NodeId} {r : Record} {finish : Tick}
    (hr : records.find? id = some r) (hfinish : r.finish = some finish) :
    spanOf records id = finish - r.start := by
  rw [spanOf, hr, Option.bind_some, hfinish]
  rfl

/-- A chain of dependencies between nodes of the trace, the last node first. -/
def Setup.Chain (s : Setup) (ids : List NodeId) : Prop :=
  ids.IsChain (fun id p => s.Parent p id) ∧ ∀ id ∈ ids, ∃ n ∈ s.trace, n.id = id

/-- **A chain lasts no longer than until its last node ends.** -/
theorem Timing.sum_le_finish {s : Setup} {capacity : Capacity} {records : SortedMap NodeId Record}
    {now : Tick} (h : Timing s.graph capacity records now) {ids : List NodeId} :
    ∀ {id : NodeId} {r : Record} {finish : Tick}, s.Chain (id :: ids) → records.find? id = some r →
      r.finish = some finish → ((id :: ids).map (spanOf records)).sum ≤ finish := by
  induction ids with
  | nil =>
      intro id r finish _ hr hfinish
      rw [List.map_cons, List.sum_cons, spanOf_eq hr hfinish]
      exact Nat.sub_le _ _
  | cons p ids ih =>
      intro id r finish hchain hr hfinish
      obtain ⟨hchain, hknown⟩ := hchain
      obtain ⟨hparent, hrest⟩ := List.isChain_cons_cons.1 hchain
      obtain ⟨n, hn, hp⟩ := Setup.parent_iff.1 hparent
      obtain ⟨rp, finish', hrp, hfinish', hle⟩ := h.ordered id r n hr hn p hp
      have hsum := ih ⟨hrest, fun id hid => hknown id (List.mem_cons_of_mem _ hid)⟩ hrp hfinish'
      have hbegun := (h.interval id r finish hr hfinish).1
      rw [List.map_cons, List.sum_cons, spanOf_eq hr hfinish]
      have hstart := Nat.le_trans hsum hle
      calc finish - r.start + ((p :: ids).map (spanOf records)).sum
          ≤ finish - r.start + r.start := Nat.add_le_add_left hstart _
        _ = finish := Nat.sub_add_cancel hbegun

namespace Setup.Rests

variable {s : Setup} {c : AnalyticalConfig} {m : Moment Analytical}
variable (h : s.Rests c m) (hfinished : m.workload.isFinished = true)

include h hfinished

/-- **Without waiting some chain lasts until the end of a node**: its last parent to end ends when it
starts, and so on. -/
theorem exists_chain (prompt : ∀ n ∈ s.trace, ∀ r,
      m.workload.statistics.records.find? n.id = some r →
        r.start = readyAt m.workload.statistics.records n) {n : Node} (hn : n ∈ s.trace) :
    ∃ ids r, s.Chain (n.id :: ids) ∧ m.workload.statistics.records.find? n.id = some r ∧
      r.finish = some ((n.id :: ids).map (spanOf m.workload.statistics.records)).sum := by
  have hacc : Acc s.Parent n.id := by
    obtain ⟨r, finish, hr, hfinish, -⟩ := h.ended_of_mem hfinished hn
    obtain ⟨hc, hunfreed⟩ := h.coherent
    refine acc_of_topological hc.lifecycle.order n.id ((hc.lifecycle.freed n.id).2 ⟨?_, ?_⟩)
    · exact Record.ended_iff.2 ⟨r, finish, hr, hfinish⟩
    · simp [hunfreed]
  generalize hid : n.id = id at hacc
  induction hacc generalizing n with
  | intro id _ ih =>
      subst hid
      obtain ⟨r, finish, hr, hfinish, hbegun, -⟩ := h.ended_of_mem hfinished hn
      have hstart := prompt n hn r hr
      rcases Counter.foldl_max_mem (n.distinctParents.filterMap fun p =>
          (m.workload.statistics.records.find? p).bind Record.finish) 0 with hzero | hmem
      · -- it starts at once, alone
        refine ⟨[], r, ⟨List.isChain_singleton _, ?_⟩, hr, ?_⟩
        · exact fun id hid => ⟨n, hn, (List.mem_singleton.1 hid).symm⟩
        · rw [hfinish, List.map_cons, List.sum_cons, spanOf_eq hr hfinish, hstart, readyAt, hzero]
          rfl
      · -- it starts when one of its parents ends
        obtain ⟨p, hp, hend⟩ := List.mem_filterMap.1 hmem
        have hparent : s.Parent p n.id := Setup.parent_iff.2
          ⟨n, (s.built.lookup_iff n.id n).2 ⟨hn, rfl⟩, Node.mem_distinctParents.1 hp⟩
        obtain ⟨np, hnp⟩ := Setup.lookup_of_parent hparent
        obtain ⟨hmemp, rfl⟩ := (s.built.lookup_iff p np).1 hnp
        obtain ⟨ids, rp, ⟨hchain, hknown⟩, hrp, hsum⟩ := ih np.id hparent hmemp rfl
        rw [hrp, Option.bind_some, hsum] at hend
        refine ⟨np.id :: ids, r, ⟨List.isChain_cons_cons.2 ⟨hparent, hchain⟩, ?_⟩, hr, ?_⟩
        · intro id hid
          rcases List.mem_cons.1 hid with rfl | hid
          · exact ⟨n, hn, rfl⟩
          · exact hknown id hid
        · rw [List.map_cons, List.sum_cons, Option.some.inj hend, spanOf_eq hr hfinish, hfinish]
          have heq : r.start = (n.distinctParents.filterMap fun p =>
            (m.workload.statistics.records.find? p).bind Record.finish).foldl max 0 := hstart
          rw [← heq, Nat.sub_add_cancel hbegun]

/-- Without waiting a run lasts as long as its longest chain of dependencies. -/
theorem isGreatest_chain (prompt : ∀ n ∈ s.trace, ∀ r,
    m.workload.statistics.records.find? n.id = some r →
      r.start = readyAt m.workload.statistics.records n) :
    IsGreatest {total | ∃ ids, s.Chain ids ∧
      total = (ids.map (spanOf m.workload.statistics.records)).sum} m.kernel.now := by
  constructor
  · rcases eq_or_ne s.trace [] with hnil | hne
    · -- without nodes no tick has passed
      refine ⟨[], ⟨List.isChain_nil, by simp⟩, Nat.eq_zero_of_not_pos fun hpos => ?_⟩
      obtain ⟨id, r, hr, -⟩ := h.exists_active hpos
      obtain ⟨n, hn, -⟩ := h.mem_trace_of_record hr
      rw [hnil] at hn
      cases hn
    · obtain ⟨n, hn, r, hr, hfinish⟩ := h.exists_last hfinished hne
      obtain ⟨ids, r', hchain, hr', hsum⟩ := h.exists_chain hfinished prompt hn
      cases hr.symm.trans hr'
      exact ⟨n.id :: ids, hchain, Option.some.inj (hfinish.symm.trans hsum)⟩
  · rintro total ⟨ids, hchain, rfl⟩
    cases ids with
    | nil => exact Nat.zero_le _
    | cons id ids =>
        obtain ⟨n, hn, rfl⟩ := hchain.2 id List.mem_cons_self
        obtain ⟨r, finish, hr, hfinish, -, hle⟩ := h.ended_of_mem hfinished hn
        exact Nat.le_trans (Timing.sum_le_finish h.punctual hchain hr hfinish) hle

end Setup.Rests

/-! ### Whole runs -/

/-- **Waiting is always explained by a full resource.**  In a run that returns, a node of a class
without resource starts when the last of its parents ends.  Any other node starts then or later, and at
every tick in between as many nodes of its resource are active as it has slots.  If there are as many
slots as nodes, every node starts when the last of its parents ends, and the run lasts as long as the
longest chain of dependencies. -/
theorem Replay.waiting_explained {s : Setup} {c : AnalyticalConfig} {j : Array Entry} {tick : Tick}
    {t : Logged (Engine Analytical)} (hrun : run ⟨s.engine { config := c }, j⟩ = .ok tick t) :
    (∀ n ∈ s.trace, ∃ r finish, t.state.workload.statistics.records.find? n.id = some r ∧
      r.finish = some finish ∧ readyAt t.state.workload.statistics.records n ≤ r.start ∧
      (Resource.ofClass? n.nodeClass = none →
        r.start = readyAt t.state.workload.statistics.records n) ∧
      ∀ resource, Resource.ofClass? n.nodeClass = some resource →
        ∀ t', readyAt t.state.workload.statistics.records n ≤ t' → t' < r.start →
          activeOn s.graph t.state.workload.statistics.records resource t' =
            s.config.resources.get resource) ∧
    ((∀ resource, s.trace.length ≤ s.config.resources.get resource) →
      (∀ n ∈ s.trace, ∀ r, t.state.workload.statistics.records.find? n.id = some r →
        r.start = readyAt t.state.workload.statistics.records n) ∧
      IsGreatest {total | ∃ ids, s.Chain ids ∧
        total = (ids.map (spanOf t.state.workload.statistics.records)).sum} tick) := by
  obtain ⟨hfinish, -, m, rests, ht, hnow⟩ := ends_run_rests.of_ok hrun
  rw [← ht] at hfinish ⊢
  have hfinished : m.workload.isFinished = true := by rw [Workload.isFinished, hfinish]; rfl
  refine ⟨fun n hn => ?_, fun roomy => ?_⟩
  · obtain ⟨r, finish, hr, hend, -⟩ := rests.ended_of_mem hfinished hn
    refine ⟨r, finish, hr, hend, rests.readyAt_le_start hn hr,
      rests.start_eq_of_ofClass_none hn hr, fun resource hresource t' hle hlt => ?_⟩
    obtain ⟨resource', hresource', hfull⟩ := rests.full_while_waiting hn hr hle hlt
    cases hresource.symm.trans hresource'
    exact hfull
  · have prompt : ∀ n ∈ s.trace, ∀ r, m.workload.statistics.records.find? n.id = some r →
        r.start = readyAt m.workload.statistics.records n :=
      fun n hn r hr => rests.start_eq_readyAt hn hr roomy
    refine ⟨prompt, ?_⟩
    rw [← hnow]
    exact rests.isGreatest_chain hfinished prompt

/-- With one slot of each resource the bad node of the crowd waits while a computation takes its slot.
With three of each none waits, and the longest chain lasts as long as the run. -/
theorem Replay.waiting_explained_crowd : ∃ t t',
    run ⟨(Setup.crowd .standard rfl).engine { config := {} }, #[]⟩ = .ok 6000 t ∧
    run ⟨(Setup.crowd (.uniform 3) rfl).engine { config := {} }, #[]⟩ = .ok 3000 t' ∧
    (∃ n ∈ (Setup.crowd .standard rfl).trace, ∃ r,
      t.state.workload.statistics.records.find? n.id = some r ∧ r.start = 3000 ∧
        readyAt t.state.workload.statistics.records n = 0 ∧
        activeOn (Setup.crowd .standard rfl).graph t.state.workload.statistics.records .cpuCompute
          2999 = 1) ∧
    IsGreatest {total | ∃ ids, (Setup.crowd (.uniform 3) rfl).Chain ids ∧
      total = (ids.map (spanOf t'.state.workload.statistics.records)).sum} 3000 := by
  have hruns : Ends run ⟨(Setup.crowd .standard rfl).engine { config := {} }, #[]⟩
      (fun tick t => tick = 6000 ∧ ∃ n ∈ (Setup.crowd .standard rfl).trace,
        Resource.ofClass? n.nodeClass = some .cpuCompute ∧
        readyAt t.state.workload.statistics.records n = 0 ∧
        (t.state.workload.statistics.records.find? n.id).map Record.start = some 3000)
      fun _ _ => False := by decide +kernel
  have hruns' : Ends run ⟨(Setup.crowd (.uniform 3) rfl).engine { config := {} }, #[]⟩
      (fun tick _ => tick = 3000) fun _ _ => False := by decide +kernel
  have hslots : (Setup.crowd .standard rfl).config.resources.get .cpuCompute = 1 := by
    decide +kernel
  have hroomy : ∀ resource ∈ Resource.all, (Setup.crowd (.uniform 3) rfl).trace.length ≤
      (Setup.crowd (.uniform 3) rfl).config.resources.get resource := by decide +kernel
  obtain ⟨_, t, hrun, rfl, n, hn, hclass, hready, hstart⟩ := hruns.exists_ok
  obtain ⟨_, t', hrun', rfl⟩ := hruns'.exists_ok
  obtain ⟨hwaits, -⟩ := Replay.waiting_explained hrun
  obtain ⟨-, hchain⟩ := Replay.waiting_explained hrun'
  obtain ⟨r, finish, hr, -, -, -, hfull⟩ := hwaits n hn
  rw [hr, Option.map_some, Option.some.injEq] at hstart
  refine ⟨t, t', hrun, hrun', ⟨n, hn, r, hr, hstart, hready, ?_⟩, ?_⟩
  · rw [hfull _ hclass 2999 (by rw [hready]; decide) (by rw [hstart]; decide), hslots]
  · exact (hchain fun resource => hroomy resource (by cases resource <;> decide)).2

end TraceReplay
