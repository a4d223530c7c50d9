/-
**Independent work does not interfere.**

Two accepted traces without a common id, and without a resource that nodes of both use, are replayed as one
trace.  If that run returns then a run of either trace alone returns as well, and leaves the same record of
every node, however the ids of the two traces interleave.

The run of the whole is followed event by event.  Its moments stay like moments of the run of the part,
which makes no move while the whole is busy with other nodes; in the end the part has nothing left to do
either.  What the part does that way its engine really does, and the sums of its report fit because those
of the whole did.

Main definitions:

* `Setup.Poised` — the moments of a whole run before the check whether it has ended.

Main results:

* `Setup.Rests.alike` — a whole run passes through moments that are like moments of the run of a part;
* `Setup.Poised.ends_run` — what the moves lead to is what the run does;
* `Setup.undisturbed` — **independent work on other resources does not interfere**.
-/

import TraceReplay.Proofs.Accounting
import TraceReplay.Proofs.Alike

set_option relaxedAutoImplicit false
set_option autoImplicit false

namespace TraceReplay

open Relation
open TraceReplay.Action

/-! ### Moments of a whole run -/

/-- The moments of a whole run before it is checked whether the run has ended. -/
inductive Setup.Poised (s : Setup) (c : AnalyticalConfig) : Moment Analytical → Prop
  | fire {m : Moment Analytical} (turn : Turn .wake (s.moment { config := c }) m) : Poised s c m
  | next {m m' : Moment Analytical} {event : Event} {k : Analytical} (poised : Poised s c m)
      (next : m.kernel.next? = some (event, k)) (turn : Turn event { m with kernel := k } m') :
      Poised s c m'

theorem Setup.Rests.orderly {s : Setup} {c : AnalyticalConfig} {m : Moment Analytical}
    (h : s.Rests c m) : Orderly s m := by
  obtain ⟨calls, -, -, -, prepared⟩ := h.atRest
  exact ⟨h.coherent.1, prepared⟩

namespace Setup.Poised

variable {s : Setup} {c : AnalyticalConfig} {m : Moment Analytical}

theorem orderly (h : s.Poised c m) : Orderly s m := by
  induction h with
  | fire turn =>
      have hstart := Orderly.initial s c
      refine ⟨hstart.coherent.moves turn.moves, ?_⟩
      rw [turn.keeps.1]
      exact hstart.prepared.wake.moves turn.moves
  | next poised next turn ih => exact ih.turn next turn

/-- No node is aside, and the run has not ended yet. -/
theorem keeps (h : s.Poised c m) : m.aside = [] ∧ m.workload.isFinished = false := by
  induction h with
  | fire turn =>
      obtain ⟨-, haside, -, -, hfinish, -⟩ := turn.keeps
      exact ⟨haside, by rw [Workload.isFinished, hfinish]; exact s.isFinished_moment _⟩
  | next poised next turn ih =>
      obtain ⟨-, haside, -, -, hfinish, -⟩ := turn.keeps
      exact ⟨haside.trans ih.1, by rw [Workload.isFinished, hfinish]; exact ih.2⟩

theorem blocked (h : s.Poised c m) : Blocked s m := by
  cases h with
  | fire turn => exact turn.blocked (Orderly.initial s c).coherent rfl
  | next poised next turn =>
      exact turn.blocked (poised.orderly.coherent.withKernel _) poised.keeps.1

end Setup.Poised

/-! ### The whole and a part -/

namespace Alike

variable {part whole : Setup} {rest : List Node} {M M' m : Moment Analytical}

/-- Before their first events the whole is like the part. -/
theorem initial (apart : part.Apart whole rest) (c : AnalyticalConfig) :
    Alike part (whole.moment { config := c }) (part.moment { config := c }) := by
  obtain ⟨-, group, hwhole⟩ := whole.created_iff
  obtain ⟨-, group', hpart⟩ := part.created_iff
  constructor
  all_goals simp only [Setup.moment, Setup.engine, hwhole, hpart]
  · exact fun _ _ => rfl
  · exact apart.ready_eq
  · rfl
  · exact ⟨trivial, trivial⟩
  · rfl
  · rfl

theorem wake (h : Alike part M m) :
    Alike part { M with delivered := .wake :: M.delivered } { m with delivered := .wake :: m.delivered } :=
  { h with }

theorem settle (h : Alike part M m) (settles : Settles M M') : Alike part M' m := by
  cases settles <;> exact { h with }

end Alike

/-- **A whole run passes through moments that are like moments of the run of a part.** -/
theorem Setup.Rests.alike {part whole : Setup} {rest : List Node} (apart : part.Apart whole rest)
    {c : AnalyticalConfig} {M : Moment Analytical} (rests : whole.Rests c M) :
    ∃ m, part.Poised c m ∧ Alike part M m := by
  induction rests with
  | fire turn settles =>
      cases turn with
      | wake drains =>
          obtain ⟨m, drains', h⟩ := (Alike.initial apart c).wake.drains apart
            (Orderly.initial whole c).wake (Orderly.initial part c).wake (.inl rfl) drains
          exact ⟨m, .fire (.wake drains'), h.settle settles⟩
      | complete closes =>
          obtain ⟨arrives, -, -⟩ := closes
          exact absurd rfl arrives.ne_wake
      | drop drops => exact absurd drops (Orderly.initial whole c).coherent.not_drops
  | next rests goesOn next turn settles ih =>
      obtain ⟨m, poised, h⟩ := ih
      rcases h.turn apart rests.orderly poised.orderly poised.blocked next turn with h | h
      · exact ⟨m, poised, h.settle settles⟩
      · obtain ⟨event, k, m', next', turn', h⟩ := h
        exact ⟨m', .next poised next' turn', h.settle settles⟩

/-! ### The engine of the part -/

namespace Setup.Poised

open Engine Replay

variable {s : Setup} {c : AnalyticalConfig} {m : Moment Analytical}

/-- A call comes to what an event does, and the check whether the run has ended. -/
theorem ends_call_of_turn {m' : Moment Analytical} {event : Event}
    (unfinished : m.workload.isFinished = false) (untracked : m.workload.statistics.memory = none)
    (turn : Turn event m m') {Q : Unit → Logged (Engine Analytical) → Prop}
    {E : Stop → Logged (Engine Analytical) → Prop}
    (check : ∀ j, Ends checkTermination ⟨m'.toEngine, j⟩ Q E) (j : Array Entry) :
    Ends (call event) ⟨m.toEngine, j⟩ Q E := by
  simp only [call_eq, workloadOf, ends_bind, ends_get, ends_pure, unfinished, Bool.false_eq_true,
    ↓reduceIte]
  exact (yields_turn Analytical.blind untracked turn).ends check j

/-- **What the moves lead to is what the run does**: if it ends well from there on, it does. -/
theorem ends_run (h : s.Poised c m) (untracked : s.config.trackMemory = false)
    {Q : Engine Analytical → Prop}
    (ends : ∀ j, Ends checkTermination ⟨m.toEngine, j⟩ (fun _ t => ∀ fuel, bound t.state < fuel →
      Ends (finishWithin fuel) t (fun _ t => Q t.state) fun _ _ => False) fun _ _ => False)
    (j : Array Entry) :
    Ends run ⟨s.engine { config := c }, j⟩ (fun _ t => Q t.state) fun _ _ => False := by
  induction h with
  | fire turn =>
      have hmemory := (Orderly.initial s c).coherent.untracked untracked
      simp only [run, ends_bind, ends_get, ends_pure]
      refine (ends_call_of_turn (m := s.moment { config := c }) (s.isFinished_moment _) hmemory turn
        ends j).imp (fun _ t hends => ?_) fun _ _ h => h
      exact hends _ (Nat.lt_succ_self _)
  | @next m m' event k poised next turn ih =>
      have unfinished := poised.keeps.2
      have hmemory := poised.orderly.coherent.untracked untracked
      refine ih fun j => ?_
      -- an event is to come, so the run goes on and handles it
      simp only [checkTermination, workloadOf, ends_bind, ends_get, ends_pure,
        poised.orderly.busy_of_next next, Bool.true_or, ↓reduceIte]
      intro fuel hfuel
      obtain ⟨fuel, rfl⟩ := Nat.exists_eq_succ_of_ne_zero (Nat.ne_zero_of_lt hfuel)
      simp only [finishWithin, step, ends_bind, ends_get, unfinished, Bool.false_eq_true, ↓reduceIte,
        next, ends_update]
      have hcall := ends_call_of_turn (m := { m with kernel := k }) unfinished hmemory turn ends j
      refine ends_iff.2 ⟨fun _ t hrun => hcall.of_ok hrun fuel ?_,
        fun _ _ hrun => hcall.of_error hrun⟩
      have hbound := bound_call_le hrun
      have hpending := Analytical.pending_of_next next
      simp only [bound] at hbound hfuel ⊢
      omega

end Setup.Poised

/-! ### The end of the run -/

/-- What some entries of a map add up to is at most what all of them do. -/
theorem SortedMap.sum_values_le {κ β : Type} [Key κ] {m m' : SortedMap κ β}
    (h : ∀ k v, m.find? k = some v → m'.find? k = some v) (f : β → Nat) :
    (m.values.map f).sum ≤ (m'.values.map f).sum := by
  have hsub : m.toList ⊆ m'.toList := fun e he =>
    (m'.mem_toList_iff e.1 e.2).2 (h _ _ ((m.mem_toList_iff e.1 e.2).1 he))
  obtain ⟨l, hperm, hl⟩ := List.subperm_of_subset m.nodup_toList hsub
  have hvalues := (hperm.map fun e => f e.2).sum_eq
  rw [values, values, List.map_map, List.map_map]
  exact hvalues.symm.trans_le ((hl.map fun e => f e.2).sum_le_sum fun _ _ => Nat.zero_le _)

/-- The run ends if no work is left and its sums fit. -/
theorem Engine.ends_checkTermination_of_fits {s : Setup} {m : Moment Analytical} {now : Tick}
    (hc : Coherent s m) (done : m.workload.adapter.hasRemainingWork m.workload.graph = false)
    (unfreed : m.unfreed = [])
    (interval : ∀ id r finish, m.workload.statistics.records.find? id = some r →
      r.finish = some finish → r.start ≤ finish ∧ finish ≤ now) (hnow : now < Counter.limit)
    (untracked : m.workload.statistics.memory = none) (fits : m.workload.statistics.Fits)
    (j : Array Entry) :
    Ends checkTermination ⟨m.toEngine, j⟩ (fun _ t => t.state.workload.isFinished = true ∧
      t.state.workload.statistics.records = m.workload.statistics.records) fun _ _ => False := by
  have inTime : m.workload.statistics.InTime now := fun tracker htracker => by
    cases untracked.symm.trans htracker
  simp only [checkTermination, workloadOf, ends_bind, ends_get, ends_pure, done,
    hc.isIdle done unfreed, Bool.not_true, Bool.or_self, Bool.false_eq_true, ↓reduceIte, ends_now,
    ends_updateWorkload, ends_note, onStatistics, ends_on]
  refine ((Statistics.ends_summarize_fits (hc.unfinished_eq_none done) interval inTime hnow _).and
    (Statistics.ends_summarize_reported _ _)).imp ?_ ?_
  · rintro _ t ⟨-, timeline, report, ht, -⟩
    simp only [Statistics.noteReport, ends_bind, ends_get]
    exact ends_forM_note _ fun j => ⟨rfl, by rw [ht]; rfl⟩
  · rintro _ t ⟨⟨overflows, -⟩, -⟩
    exact overflows fits

/-- **A run returns with the records of a moment at which no work is left**, if its sums fit. -/
theorem Setup.Poised.ends_run_of_done {s : Setup} {c : AnalyticalConfig} {m : Moment Analytical}
    {now : Tick} (h : s.Poised c m) (untracked : s.config.trackMemory = false)
    (done : m.workload.adapter.hasRemainingWork m.workload.graph = false) (unfreed : m.unfreed = [])
    (interval : ∀ id r finish, m.workload.statistics.records.find? id = some r →
      r.finish = some finish → r.start ≤ finish ∧ finish ≤ now) (hnow : now < Counter.limit)
    (fits : m.workload.statistics.Fits) (j : Array Entry) :
    Ends Replay.run ⟨s.engine { config := c }, j⟩ (fun _ t =>
      t.state.workload.statistics.records = m.workload.statistics.records) fun _ _ => False := by
  have hc := h.orderly.coherent
  have ends := Engine.ends_checkTermination_of_fits hc done unfreed interval hnow
    (hc.untracked untracked) fits
  refine h.ends_run (Q := fun e => e.workload.statistics.records = m.workload.statistics.records)
    untracked (fun j => (ends j).imp ?_ fun _ _ h => h) j
  rintro _ t ⟨hfinished, hrecords⟩ fuel hfuel
  obtain ⟨fuel, rfl⟩ := Nat.exists_eq_succ_of_ne_zero (Nat.ne_zero_of_lt hfuel)
  simp only [Replay.finishWithin, ends_bind, ends_get, hfinished, ↓reduceIte, ends_pure]
  exact hrecords

namespace Alike

variable {part whole : Setup} {rest : List Node} {M m : Moment Analytical}

/-- **When the whole has no work left neither has the part.** -/
theorem done (apart : part.Apart whole rest) (hM : Coherent whole M) (hm : Coherent part m)
    (h : Alike part M m) (done : M.workload.adapter.hasRemainingWork M.workload.graph = false) :
    m.workload.adapter.hasRemainingWork m.workload.graph = false := by
  have hnone := hM.lookup_eq_none done
  rw [hM.adapter, Adapter.hasRemainingWork, Graph.hasRemainingWork, Bool.or_eq_false_iff,
    Bool.not_eq_false', Bool.not_eq_false', List.isEmpty_iff] at done
  have hempty : m.workload.graph.isEmpty = true := by
    refine SortedMap.isEmpty_iff.2 fun id => ?_
    by_cases hid : part.owns id = true
    · exact (h.lookup_eq apart hM hm hid).symm.trans (hnone id)
    · -- the part never had the node
      have hpresent := hm.lifecycle.present id
      rw [Setup.owns, Bool.not_eq_true, Option.isSome_eq_false_iff, Option.isNone_iff_eq_none] at hid
      rw [hid, ite_self] at hpresent
      exact hpresent
  have hready : m.workload.graph.ready = [] := by rw [← h.ready, done.2, List.filter_nil]
  rw [hm.adapter, Adapter.hasRemainingWork, Graph.hasRemainingWork, hempty, hready]
  rfl

/-- The records of the part are records of the whole. -/
theorem find?_of_part (hm : Coherent part m) (h : Alike part M m) {id : NodeId} {r : Record}
    (hr : m.workload.statistics.records.find? id = some r) :
    M.workload.statistics.records.find? id = some r := by
  obtain ⟨⟨n, hn, -⟩, -⟩ := hm.lifecycle.started id r hr
  rw [h.records id (Setup.owns_of_lookup hn), hr]

end Alike

/-- **Independent work on other resources does not interfere.**  A trace is put together from two accepted
traces that use no resource in common.  If a whole run of it returns, so does a whole run of the first
trace alone, and every node of that trace has the same record in both. -/
theorem Setup.undisturbed (whole : Setup) (untracked : whole.config.trackMemory = false)
    {ns rest : List Node} {g g' : Graph} (accepted : Graph.ofNodes ns = .ok g)
    (accepted' : Graph.ofNodes rest = .ok g') (union : whole.trace.Perm (ns ++ rest))
    (resources : ∀ n ∈ ns, ∀ n' ∈ rest, ∀ r, Resource.ofClass? n.nodeClass = some r →
      Resource.ofClass? n'.nodeClass ≠ some r) (c : AnalyticalConfig) (j j' : Array Entry) :
    Ends Replay.run ⟨whole.engine { config := c }, j⟩
      (fun _ t => Ends Replay.run ⟨(whole.withTrace accepted).engine { config := c }, j'⟩
        (fun _ t' => ∀ n ∈ ns, ∃ r, t.state.workload.statistics.records.find? n.id = some r ∧
          t'.state.workload.statistics.records.find? n.id = some r)
        fun _ _ => False)
      fun _ _ => True := by
  have apart : (whole.withTrace accepted).Apart whole rest :=
    ⟨rfl, rfl, union, ⟨g', accepted'⟩, resources⟩
  refine Replay.ends_run_rests.imp ?_ fun _ _ _ => trivial
  rintro tick t ⟨htick, ⟨report, -, sums⟩, M, rests, hM, -⟩
  rw [← hM] at htick sums ⊢
  obtain ⟨m, poised, h⟩ := rests.alike apart
  have hc := poised.orderly.coherent
  -- the whole has ended, so the part has nothing left to do
  obtain ⟨calls, -, -, hrest, hprepared⟩ := rests.atRest
  have hC := hrest.coherent
  obtain ⟨-, hdone, -⟩ := hrest.finished (by rw [Workload.isFinished, htick]; rfl)
  replace hdone : M.workload.adapter.hasRemainingWork M.workload.graph = false := by
    rw [hC.adapter]
    exact hdone
  -- the sums of its report are no larger than those of the whole
  have interval := rests.punctual.interval
  have fits : m.workload.statistics.Fits := by
    refine ⟨Nat.lt_of_le_of_lt (Nat.add_le_add_left ?_ 1) (sums.time_lt fun r hr finish hfinish => ?_),
      fun tracker htracker => by cases (hc.untracked untracked).symm.trans htracker⟩
    · exact SortedMap.sum_values_le (fun _ _ hr => h.find?_of_part hc hr) Record.computeTime
    · obtain ⟨id, hr⟩ := (SortedMap.mem_values_iff _ _).1 hr
      exact (interval id r finish hr hfinish).1
  have ends := poised.ends_run_of_done untracked (h.done apart hC hc hdone) h.unfreed.2
    (fun id r finish hr => interval id r finish (h.find?_of_part hc hr)) hprepared.now_lt fits j'
  refine ends.imp (fun _ t hrecords n hn => ?_) fun _ _ h => h
  have hended := hC.ended_of_not_hasRemainingWork hdone (apart.mem_trace.2 (.inl hn))
  obtain ⟨r, -, hr, -⟩ := Record.ended_iff.1 hended
  refine ⟨r, hr, ?_⟩
  rw [hrecords, ← h.records n.id, hr]
  exact Setup.owns_of_lookup (((whole.withTrace accepted).built.lookup_iff n.id n).2 ⟨hn, rfl⟩)

/-- A computation on the CPU and one on the GPU after it, and between them in the trace a load from the
remote memory and a send after it, all for as long as recorded. -/
@[irreducible] def Setup.duet : Setup :=
  .ofTrace { replayOnly := true } [
    { id := 1, name := "count", kind := .compute, dataDeps := [], ctrlDeps := []
      attributes := { runtime := some 3 } },
    { id := 2, name := "fetch", kind := .memLoad, dataDeps := [], ctrlDeps := []
      attributes := { runtime := some 1 } },
    { id := 3, name := "draw", kind := .compute, dataDeps := [1], ctrlDeps := []
      attributes := { runtime := some 2, isCpuOp := some false } },
    { id := 4, name := "pass", kind := .send, dataDeps := [2], ctrlDeps := []
      attributes := { runtime := some 6 } }]

/-- The computations are not disturbed by the transfers between them. -/
theorem Setup.undisturbed_duet : ∃ (tasks transfers : List Node) (g g' : Graph)
    (accepted : Graph.ofNodes tasks = .ok g), Graph.ofNodes transfers = .ok g' ∧
      tasks.map Node.id = [1, 3] ∧ transfers.map Node.id = [2, 4] ∧
      duet.trace.Perm (tasks ++ transfers) ∧ duet.config.trackMemory = false ∧
      (∀ n ∈ tasks, ∀ n' ∈ transfers, ∀ r, Resource.ofClass? n.nodeClass = some r →
        Resource.ofClass? n'.nodeClass ≠ some r) ∧
      Ends Replay.run ⟨duet.engine { config := {} }, #[]⟩
        (fun _ t => Ends Replay.run ⟨(duet.withTrace accepted).engine { config := {} }, #[]⟩
          (fun _ t' => ∀ n ∈ tasks, ∃ r, t.state.workload.statistics.records.find? n.id = some r ∧
            t'.state.workload.statistics.records.find? n.id = some r)
          fun _ _ => False)
        fun _ _ => False := by
  let computes (n : Node) : Bool := n.nodeClass.isCompute
  let tasks := duet.trace.filter computes
  let transfers := duet.trace.filter fun n => !computes n
  obtain ⟨g, accepted⟩ : ∃ g, Graph.ofNodes tasks = .ok g :=
    Except.exists_ok_of_isSome (by decide +kernel)
  obtain ⟨g', accepted'⟩ : ∃ g, Graph.ofNodes transfers = .ok g :=
    Except.exists_ok_of_isSome (by decide +kernel)
  have union : duet.trace.Perm (tasks ++ transfers) := (List.filter_append_perm _ _).symm
  have untracked : duet.config.trackMemory = false := by decide +kernel
  have resources : ∀ n ∈ tasks, ∀ n' ∈ transfers, ∀ r, Resource.ofClass? n.nodeClass = some r →
      Resource.ofClass? n'.nodeClass ≠ some r := fun n hn n' hn' r hr hr' =>
    (by decide +kernel : ∀ n ∈ tasks, ∀ n' ∈ transfers,
      Resource.ofClass? n.nodeClass ≠ Resource.ofClass? n'.nodeClass) n hn n' hn' (hr.trans hr'.symm)
  have returns : Ends Replay.run ⟨duet.engine ({ config := {} } : Analytical), #[]⟩ (fun _ _ => True)
      fun _ _ => False := by decide +kernel
  refine ⟨tasks, transfers, g, g', accepted, accepted', by decide +kernel, by decide +kernel, union,
    untracked, resources, ?_⟩
  exact ((duet.undisturbed untracked accepted accepted' union resources {} #[] #[]).and returns).imp
    (fun _ _ h => h.1) fun _ _ h => h.2

end TraceReplay
