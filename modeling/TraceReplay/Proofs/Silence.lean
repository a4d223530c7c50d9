/-
**Who writes trace lines.**

Of everything that is noted in the journal two kinds of entries are trace lines: that a node is issued,
and that its completion came back.  The journal only ever grows, and almost all that the engine, its
parts and the analytical kernel do is *silent*: it may note this and that, but no trace line.  There are
two exceptions.  Issuing a node writes one line, and so does retiring a node that came back; everything
else that these do is silent as well.

Main definitions:

* `Entry.lineNode?`, `Entry.lineTick?` — the node and the tick of a trace line;
* `Journal.Grows` — entries are added to a journal, and which of them are trace lines;
* `Action.Silent` — an action writes no trace lines, whatever it comes to;
* `Kernel.Silent` — a kernel writes none.

Main results:

* `SlotPool.silent_occupy`, `Statistics.silent_recordEnd`, `Analytical.silent` — the parts are silent;
* `Engine.ends_issue_line`, `Engine.ends_retire_line` — **issuing and retiring a node write one line**.
-/

import TraceReplay.Kernel.Analytical
import TraceReplay.Proofs.Engine.Simulation

set_option relaxedAutoImplicit false
set_option autoImplicit false

namespace TraceReplay

open TraceReplay.Action

/-! ### Trace lines -/

namespace Entry

/-- The node that a trace line is about. -/
def lineNode? : Entry → Option NodeId
  | issue _ _ node | callback _ _ node => some node.id
  | _ => none

/-- The tick of a trace line. -/
def lineTick? : Entry → Option Tick
  | issue _ tick _ | callback _ tick _ => some tick
  | _ => none

/-- Whether an entry is a trace line. -/
def isTraceLine (e : Entry) : Bool := e.lineNode?.isSome

/-- Trace lines are of the debug level. -/
theorem level_of_isTraceLine {e : Entry} (h : e.isTraceLine = true) : e.level = .debug := by
  cases e <;> first | rfl | cases h

end Entry

/-- Entries have been added to a journal; some trace lines are those among them, in their order. -/
def Journal.Grows (j : Array Entry) (lines : List Entry) (j' : Array Entry) : Prop :=
  ∃ added : List Entry, j'.toList = j.toList ++ added ∧ added.filter Entry.isTraceLine = lines

namespace Journal.Grows

variable {j j' j'' : Array Entry} {lines lines' : List Entry} {e : Entry}

theorem refl (j : Array Entry) : Grows j [] j := ⟨[], by simp, rfl⟩

theorem trans (h : Grows j lines j') (h' : Grows j' lines' j'') : Grows j (lines ++ lines') j'' := by
  obtain ⟨added, hj, rfl⟩ := h
  obtain ⟨added', hj', rfl⟩ := h'
  exact ⟨added ++ added', by rw [hj', hj, List.append_assoc], List.filter_append added added'⟩

/-- No trace line comes after some others. -/
theorem silent (h : Grows j lines j') (h' : Grows j' [] j'') : Grows j lines j'' := by
  have := h.trans h'
  rwa [List.append_nil] at this

theorem push (h : Grows j lines j') (he : e.isTraceLine = true) :
    Grows j (lines ++ [e]) (j'.push e) :=
  h.trans ⟨[e], Array.toList_push, List.filter_cons_of_pos he⟩

theorem push_other (h : Grows j lines j') (he : e.isTraceLine = false) : Grows j lines (j'.push e) :=
  h.silent ⟨[e], Array.toList_push, List.filter_cons_of_neg (Bool.eq_false_iff.1 he)⟩

/-- All of them are trace lines. -/
theorem isTraceLine_of_mem (h : Grows j lines j') (he : e ∈ lines) : e.isTraceLine = true := by
  obtain ⟨added, -, rfl⟩ := h
  exact (List.mem_filter.1 he).2

end Journal.Grows

/-! ### Silent actions -/

namespace Action

variable {ε ε' σ τ α β : Type}

/-- Whatever an action comes to, it has added entries to the journal and no trace line among them. -/
def Silent (act : Action ε σ α) : Prop :=
  ∀ s, Ends act s (fun _ t => Journal.Grows s.journal [] t.journal)
    fun _ t => Journal.Grows s.journal [] t.journal

namespace Silent

theorem pure (a : α) : Silent (Pure.pure a : Action ε σ α) := fun s => .refl s.journal

theorem throw (e : ε) : Silent (MonadExcept.throw e : Action ε σ α) := fun s => .refl s.journal

theorem bind {x : Action ε σ β} {f : β → Action ε σ α} (hx : Silent x) (hf : ∀ b, Silent (f b)) :
    Silent (x >>= f) := fun s => by
  rw [ends_bind]
  exact (hx s).imp (fun b t h => (hf b t).imp (fun _ _ => h.silent) fun _ _ => h.silent)
    fun _ _ h => h

theorem throw_bind (e : ε) (f : β → Action ε σ α) : Silent (MonadExcept.throw e >>= f) :=
  fun s => .refl s.journal

theorem get : Silent (Action.get : Action ε σ σ) := fun s => .refl s.journal

theorem put (a : σ) : Silent (Action.put a : Action ε σ Unit) := fun s => .refl s.journal

theorem update (f : σ → σ) : Silent (Action.update f : Action ε σ Unit) := fun s => .refl s.journal

theorem note {e : Entry} (h : e.isTraceLine = false) : Silent (Action.note e : Action ε σ Unit) :=
  fun s => (Journal.Grows.refl s.journal).push_other h

theorem lift (x : Except ε α) : Silent (Action.lift x : Action ε σ α) := by
  cases x with
  | ok a => exact .pure a
  | error e => exact .throw e

theorem ite {c : Prop} [Decidable c] {x y : Action ε σ α} (hx : Silent x) (hy : Silent y) :
    Silent (if c then x else y) := by
  split
  · exact hx
  · exact hy

theorem forM {f : β → Action ε σ Unit} : ∀ {bs : List β}, (∀ b ∈ bs, Silent (f b)) →
    Silent (bs.forM f)
  | [], _ => .pure ()
  | _ :: _, h => (h _ List.mem_cons_self).bind fun _ =>
      forM fun b hb => h b (List.mem_cons_of_mem _ hb)

theorem on {part : σ → τ} {replace : τ → σ → σ} {act : Action ε τ α} (h : Silent act) :
    Silent (act.on part replace) := fun s => by
  rw [ends_on]
  exact h ⟨part s.state, s.journal⟩

theorem stopAs {f : ε → ε'} {act : Action ε σ α} (h : Silent act) :
    Silent (act.stopAs f) := fun s => by
  rw [ends_stopAs]
  exact h s

theorem outcome {act : Action ε σ α} (h : Silent act) :
    Silent (act.outcome : Action ε' σ (Except ε α)) := fun s => by
  rw [ends_outcome]
  exact h s

/-- What is silent leaves the lines that were written before it as they are. -/
theorem ends {act : Action ε σ α} (h : Silent act) {s : Logged σ} {j : Array Entry}
    {lines : List Entry} (before : Journal.Grows j lines s.journal) :
    Ends act s (fun _ t => Journal.Grows j lines t.journal) fun _ _ => True :=
  (h s).imp (fun _ _ => before.silent) fun _ _ _ => trivial

end Silent

end Action

/-! ### Slots and handles -/

theorem SlotPool.silent_occupy (id : NodeId) (c : NodeClass) : Silent (SlotPool.occupy id c) := by
  rw [SlotPool.occupy]
  split
  · exact .pure ()
  · refine Silent.get.bind fun p => .ite (.throw_bind _ _) ?_
    exact (Silent.put _).bind fun _ => .note rfl

theorem SlotPool.silent_release (id : NodeId) (c : NodeClass) : Silent (SlotPool.release id c) := by
  rw [SlotPool.release]
  split
  · exact .pure ()
  · refine Silent.get.bind fun p => .ite (.throw_bind _ _) ?_
    exact (Silent.put _).bind fun _ => .note rfl

theorem Gatherings.silent_complete (handle : Handle) : Silent (Gatherings.complete handle) := by
  refine Silent.get.bind fun g => ?_
  split
  · exact .throw _
  · split
    · exact .throw _
    · refine (Silent.lift _).bind fun left => .ite ?_ ?_
      · exact (Silent.put _).bind fun _ => .pure _
      · exact (Silent.put _).bind fun _ => (Silent.note rfl).bind fun _ => .pure _

/-! ### Statistics -/

theorem Tracker.silent_recordRead (id : NodeId) (start finish : Tick) (t : Tensor) :
    Silent (Tracker.recordRead id start finish t) := by
  refine Silent.get.bind fun m => (Silent.lift _).bind fun known => .ite ?_ (.update _)
  exact (Silent.note rfl).bind fun _ => (Silent.update _).bind fun _ => .update _

theorem Tracker.silent_recordWrite (id : NodeId) (start finish : Tick) (t : Tensor) :
    Silent (Tracker.recordWrite id start finish t) :=
  Silent.get.bind fun _ => (Silent.lift _).bind fun _ => .ite (.throw_bind _ _) (.put _)

theorem Tracker.silent_recordEnd (n : Node) (tick : Tick) : Silent (Tracker.recordEnd n tick) := by
  refine Silent.get.bind fun m => ?_
  split
  · exact .throw _
  · refine (Silent.put _).bind fun _ => (Silent.lift _).bind fun inputs =>
      (Silent.lift _).bind fun outputs => ?_
    exact (Silent.forM fun t _ => Tracker.silent_recordRead n.id _ tick t).bind fun _ =>
      Silent.forM fun t _ => Tracker.silent_recordWrite n.id _ tick t

theorem Statistics.silent_onMemory {act : Action Stop Tracker Unit} (h : Silent act) :
    Silent (Statistics.onMemory act) := by
  refine Silent.get.bind fun s => ?_
  split
  · exact .pure ()
  · exact h.on

/-- Closing a record may warn of a tensor that nobody wrote. -/
theorem Statistics.silent_recordEnd (n : Node) (tick : Tick) :
    Silent (Statistics.recordEnd n tick) := by
  refine Silent.get.bind fun s => ?_
  split
  · exact .throw _
  · refine .ite (.throw_bind _ _) ((Silent.put _).bind fun _ => ?_)
    exact .ite (Statistics.silent_onMemory (Tracker.silent_recordEnd n tick)) (.pure ())

theorem Statistics.silent_summarize : Silent Statistics.summarize := by
  refine Silent.get.bind fun s => (Silent.note rfl).bind fun _ => ?_
  split
  · exact .throw_bind _ _
  · exact (Silent.lift _).bind fun _ => (Silent.lift _).bind fun _ => (Silent.lift _).bind fun _ =>
      (Silent.note rfl).bind fun _ => (Silent.put _).bind fun _ => .pure _

/-- The report is noted metric by metric. -/
theorem Statistics.silent_noteReport {ε : Type} :
    Silent (Statistics.noteReport : Action ε Statistics Unit) := by
  refine Silent.get.bind fun s => .forM fun e he => .note ?_
  rw [Statistics.reportEntries] at he
  split at he
  · cases List.mem_singleton.1 he
    rfl
  · obtain ⟨metric, -, rfl⟩ := List.mem_map.1 he
    rfl

/-! ### Kernels -/

/-- A kernel writes no trace lines. -/
structure Kernel.Silent (κ : Type) [Kernel κ] : Prop where
  start : ∀ token operation, Action.Silent (Kernel.start token operation : Action Fault κ Unit)
  gather : ∀ gathering, Action.Silent (Kernel.gather gathering : Action Fault κ Handle)

/-- The analytical kernel notes what transfers and collectives cost. -/
theorem Analytical.silent : Kernel.Silent Analytical := by
  refine ⟨fun token operation => ?_, fun gathering => ?_⟩
  · show Silent (Analytical.start token operation)
    refine Silent.get.bind fun k => (Silent.lift _).bind fun cost =>
      (Silent.forM fun e he => .note ?_).bind fun _ => .put _
    cases operation with
    | timed | remoteMemory => cases he
    | send | receive =>
        cases List.mem_singleton.1 he
        rfl
  · show Silent (Analytical.gather gathering)
    refine Silent.get.bind fun k => (Silent.lift _).bind fun cost =>
      (Silent.forM fun e he => .note ?_).bind fun _ => (Silent.put _).bind fun _ => .pure _
    cases gathering with
    | timed => cases he
    | collective =>
        cases List.mem_singleton.1 he
        rfl

/-! ### The engine -/

namespace Engine

variable {κ : Type} {α : Type}

theorem silent_workloadOf : Silent (workloadOf : Act κ Workload) :=
  Silent.get.bind fun _ => .pure _

theorem silent_updateWorkload (f : Workload → Workload) : Silent (updateWorkload f : Act κ Unit) :=
  .update _

theorem silent_changeGraph (f : Graph → Except Fault Graph) : Silent (changeGraph f : Act κ Unit) :=
  silent_workloadOf.bind fun _ => (Silent.lift _).bind fun _ => silent_updateWorkload _

theorem silent_onPool {act : Action Fault SlotPool α} (h : Silent act) :
    Silent (onPool act : Act κ α) :=
  h.stopAs.on

theorem silent_onGatherings {act : Action Fault Gatherings α} (h : Silent act) :
    Silent (onGatherings act : Act κ α) :=
  h.stopAs.on

theorem silent_onStatistics {act : Action Stop Statistics α} (h : Silent act) :
    Silent (onStatistics act : Act κ α) :=
  h.on

/-- Planning a node may warn that it is skipped. -/
theorem silent_planOf (n : Node) : Silent (planOf n : Act κ Plan) := by
  refine silent_workloadOf.bind fun w => ?_
  split
  · exact .pure _
  · exact .ite ((Silent.note rfl).bind fun _ => .pure _) (.throw _)
  · exact .throw _

theorem silent_skip (n : Node) (tick : Tick) : Silent (skip n tick : Act κ Unit) :=
  (silent_updateWorkload _).bind fun _ =>
    (silent_onStatistics (Statistics.silent_recordEnd n tick)).bind fun _ =>
      (silent_changeGraph _).bind fun _ => silent_changeGraph _

/-- Closing the record of a node may warn that its tensor traffic is not recorded. -/
theorem silent_recordEnd (n : Node) (tick : Tick) : Silent (recordEnd n tick : Act κ Unit) := by
  refine (silent_onStatistics (Statistics.silent_recordEnd n tick)).outcome.bind fun result => ?_
  split
  · exact .pure ()
  · exact silent_workloadOf.bind fun _ => .ite (.note rfl) (.throw _)
  · exact .throw _

/-- Taking an event may note that other handles of its node are still out. -/
theorem silent_arrive (event : Event) : Silent (arrive event : Act κ (Option (NodeId × NodeClass))) := by
  have token (token : Token) : Silent (workloadOf >>= fun w =>
      Action.lift (orFault (w.inFlight.take token event)) >>= fun back =>
        updateWorkload (fun w => { w with inFlight := back.2 }) >>= fun _ =>
          pure (some (back.1.node, back.1.nodeClass)) : Act κ (Option (NodeId × NodeClass))) :=
    silent_workloadOf.bind fun _ => (Silent.lift _).bind fun _ =>
      (silent_updateWorkload _).bind fun _ => .pure _
  cases event with
  | wake => exact .pure none
  | collectiveFinished handle => exact silent_onGatherings (Gatherings.silent_complete handle)
  | nodeFinished t => exact token t
  | packetSent t => exact token t
  | packetReceived t => exact token t

theorem ends_traceLine_of_enabled {e : Engine κ} {j : Array Entry} {entry : Nat → Entry}
    {Q : Unit → Logged (Engine κ) → Prop} {E : Stop → Logged (Engine κ) → Prop}
    (enabled : e.workload.config.traceEnabled = true) :
    Ends (traceLine entry) ⟨e, j⟩ Q E ↔ Q () ⟨e, j.push (entry e.workload.config.sysId)⟩ := by
  simp only [traceLine, workloadOf, ends_bind, ends_get, ends_pure, enabled, ↓reduceIte, ends_note]

variable [Kernel κ]

/-- The end of a run is noted, with its report. -/
theorem silent_checkTermination : Silent (checkTermination : Act κ Unit) := by
  refine silent_workloadOf.bind fun w => .ite (.pure ()) ?_
  refine (Silent.get.bind fun _ => .pure _).bind fun tick => (silent_updateWorkload _).bind fun _ =>
    (Silent.note rfl).bind fun _ => ?_
  exact (silent_onStatistics Statistics.silent_summarize).bind fun _ =>
    silent_onStatistics Statistics.silent_noteReport

section

variable (silent : Kernel.Silent κ)

include silent

theorem silent_request (id : NodeId) (c : NodeClass) (operation : Operation) :
    Silent (request id c operation : Act κ Unit) :=
  silent_workloadOf.bind fun _ => (silent_updateWorkload _).bind fun _ =>
    (silent.start _ _).stopAs.on.bind fun _ => .update _

theorem silent_gather (id : NodeId) (c : NodeClass) (gathering : Gathering) :
    Silent (gather id c gathering : Act κ Unit) :=
  (silent.gather _).stopAs.on.bind fun _ => (Silent.update _).bind fun _ =>
    silent_workloadOf.bind fun _ => (Silent.lift _).bind fun _ => silent_updateWorkload _

theorem silent_requestEstimated (id : NodeId) (c : NodeClass) (numOps ioSize : Nat) :
    Silent (requestEstimated id c numOps ioSize : Act κ Unit) := by
  refine silent_workloadOf.bind fun w => ?_
  split
  · exact .throw _
  · exact (Silent.lift _).bind fun _ => silent_workloadOf.bind fun _ => (Silent.lift _).bind fun _ =>
      (silent_updateWorkload _).bind fun _ => silent_request silent id c _

theorem silent_dispatch (id : NodeId) (c : NodeClass) (plan : Plan) :
    Silent (dispatch id c plan : Act κ Unit) := by
  cases plan with
  | skip => exact .throw _
  | operation operation => exact silent_request silent id c operation
  | roofline numOps ioSize => exact silent_requestEstimated silent id c numOps ioSize
  | collective kind size involvedDims priority =>
      exact silent_workloadOf.bind fun _ => silent_gather silent id c _
  | timedCollective duration => exact silent_gather silent id c _

end

/-! ### The two trace lines -/

variable {e : Engine κ} {j j' : Array Entry} {lines : List Entry} {id : NodeId} {n : Node}
variable (enabled : e.workload.config.traceEnabled = true)
variable (found : e.workload.graph.lookup id = some n) (before : Journal.Grows j lines j')

include enabled found before

/-- **Issuing a node writes one line**, whether the node is skipped or something is asked of the
kernel. -/
theorem ends_issue_line (silent : Kernel.Silent κ) :
    Ends (issue id) ⟨e, j'⟩
      (fun _ t => Journal.Grows j
        (lines ++ [.issue e.workload.config.sysId (Kernel.now e.kernel) n.label]) t.journal)
      fun _ _ => True := by
  have planned : Ends (planOf n) ⟨e, j'⟩ (fun _ t => t.state = e) fun _ _ => True :=
    ends_planOf (fun _ _ => rfl) (fun _ _ _ _ => rfl) (fun _ _ _ => trivial) fun _ _ => trivial
  simp only [issue, ends_bind, ends_lookup, found]
  refine (((silent_planOf n).ends before).and planned).imp ?_ fun _ _ _ => trivial
  rintro plan ⟨e', j'⟩ ⟨before', hstate⟩
  cases hstate
  rw [ends_now, ends_traceLine_of_enabled enabled]
  refine Silent.ends (.ite (silent_skip n _) ?_) (before'.push rfl)
  exact (silent_onPool (SlotPool.silent_occupy id _)).bind fun _ =>
    (silent_updateWorkload _).bind fun _ => silent_dispatch silent id _ plan

/-- **So does retiring a node** whose operation came back. -/
theorem ends_retire_line (c : NodeClass) :
    Ends (retire id c) ⟨e, j'⟩
      (fun _ t => Journal.Grows j
        (lines ++ [.callback e.workload.config.sysId (Kernel.now e.kernel) n.label]) t.journal)
      fun _ _ => True := by
  simp only [retire, ends_bind, ends_now, ends_lookup, found]
  rw [ends_traceLine_of_enabled enabled]
  have rest : Silent (recordEnd n (Kernel.now e.kernel) >>= fun _ =>
      onPool (SlotPool.release id c) >>= fun _ =>
        changeGraph fun g => g.freeDependents id : Act κ Unit) :=
    (silent_recordEnd n _).bind fun _ => (silent_onPool (SlotPool.silent_release id c)).bind fun _ =>
      silent_changeGraph _
  simpa only [ends_bind] using rest.ends (before.push rfl)

end Engine

end TraceReplay
