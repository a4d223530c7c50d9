/-
**Traces that write each tensor once.**

The tracker finds out what writes a tensor from the order in which nodes end.  If a trace writes each
tensor at most once, and whoever reads a tensor that is written comes after its writer, then that order
cannot mislead it: in every run the tables of the tracker say what the lists of the ended nodes say, and no
mention ever contradicts an earlier one.  At the end the lifetime of each tensor covers all that was done
with it.

Main definitions:

* `Setup.SingleAssignment` — a trace that writes each tensor once, before it is read;
* `Setup.Tracks`, `Setup.Tracked` — the tracker logs what the nodes that ended mention;
* `Setup.Faithful` — what the tracker says at the end of a run.

Main results:

* `Setup.SingleAssignment.permits` — a node that ends contradicts no mention before;
* `Setup.Tracked.turn` — what is done with an event keeps the tracker right, and stops with no error;
* `Setup.Tracks.faithful` — what a log says of the tensors once all nodes have ended;
* `Setup.tracked_faithfully` — **a whole run ends, and tracks all tensors faithfully**.
-/

import TraceReplay.Proofs.Memory.Liveness
import TraceReplay.Proofs.Memory.Log
import TraceReplay.Proofs.Preflight
import TraceReplay.Proofs.Schedule
import TraceReplay.Proofs.Settings

set_option relaxedAutoImplicit false
set_option autoImplicit false

namespace TraceReplay

open Relation
open TraceReplay.Action

/-- The tensors that a node mentions. -/
def Node.tensors (n : Node) : List Tensor := n.readTensors ++ n.writtenTensors

/-- For a node of the invalid kind there is nothing to simulate. -/
theorem Workload.planOf_of_invalid (w : Workload) {n : Node} (h : n.nodeClass = .invalid) :
    w.planOf n = .ok .skip := by
  rw [planOf, h]
  rfl

/-- Taking an event stops with no error. -/
theorem Engine.ends_arrive_faults {κ : Type} (event : Event) {t : Logged (Engine κ)} :
    Ends (arrive event : Act κ (Option (NodeId × NodeClass))) t (fun _ _ => True)
      fun stop _ => ∀ x, stop ≠ .error x := by
  cases event with
  | wake => trivial
  | nodeFinished token | packetSent token | packetReceived token =>
      simp only [arrive, workloadOf, ends_bind, ends_get, ends_pure]
      cases t.state.workload.inFlight.take token _ with
      | error f => exact fun x hx => by cases hx
      | ok back => trivial
  | collectiveFinished handle =>
      simp only [arrive, onGatherings, ends_on, ends_stopAs]
      exact ends_iff.2 ⟨fun _ _ _ => trivial, fun _ _ _ x hx => by cases hx⟩

namespace Setup

/-! ### Single assignment -/

/-- A node of the trace that is not of the invalid kind. -/
def Valid (s : Setup) (n : Node) : Prop := n ∈ s.trace ∧ n.nodeClass ≠ .invalid

/-- **Each tensor is written at most once, and before it is read.**  There are no cycles, memory is
tracked, and every node but those of the invalid kind can be planned and has lists that can be read. -/
structure SingleAssignment (s : Setup) : Prop where
  acyclic : s.Acyclic
  tracked : s.config.trackMemory = true
  plans : ∀ n, s.Valid n → ∃ plan, s.workload.planOf n = .ok plan
  inputs : ∀ n, s.Valid n → ∃ ts, n.inputTensors = .ok ts
  outputs : ∀ n, s.Valid n → ∃ ts, n.outputTensors = .ok ts
  sizes : ∀ n n', s.Valid n → s.Valid n' → ∀ t ∈ n.tensors, ∀ t' ∈ n'.tensors,
    t'.name = t.name → t'.size = t.size
  once : ((s.trace.filter fun n => n.nodeClass ≠ .invalid).flatMap fun n =>
    n.writtenTensors.map Tensor.name).Nodup
  ordered : ∀ reader writer, s.Valid reader → s.Valid writer → ∀ t ∈ reader.readTensors,
    ∀ t' ∈ writer.writtenTensors, t'.name = t.name → TransGen s.Parent writer.id reader.id

namespace SingleAssignment

variable {s : Setup} (single : s.SingleAssignment)

include single

/-- A node writes no tensor twice. -/
theorem nodup_written {n : Node} (hn : s.Valid n) : (n.writtenTensors.map Tensor.name).Nodup :=
  (List.nodup_flatMap.1 single.once).1 n (List.mem_filter.2 ⟨hn.1, decide_eq_true hn.2⟩)

/-- Two nodes do not write the same tensor. -/
theorem writer_unique {n n' : Node} (hn : s.Valid n) (hn' : s.Valid n') {t t' : Tensor}
    (ht : t ∈ n.writtenTensors) (ht' : t' ∈ n'.writtenTensors) (hname : t'.name = t.name) :
    n' = n := by
  by_contra hne
  have hsymm : Std.Symm (Function.onFun List.Disjoint fun n : Node =>
      n.writtenTensors.map Tensor.name) := ⟨fun _ _ h => h.symm⟩
  have hdisjoint := (List.nodup_flatMap.1 single.once).2.forall
    (List.mem_filter.2 ⟨hn'.1, decide_eq_true hn'.2⟩) (List.mem_filter.2 ⟨hn.1, decide_eq_true hn.2⟩) hne
  exact hdisjoint (List.mem_map.2 ⟨t', ht', rfl⟩) (List.mem_map.2 ⟨t, ht, hname.symm⟩)

/-- Exactly the nodes of the invalid kind are skipped. -/
theorem skips_iff {n : Node} (hn : n ∈ s.trace) : s.workload.Skips n ↔ n.nodeClass = .invalid := by
  have sound := s.workload.sound_planOf n
  by_cases hclass : n.nodeClass = .invalid
  · exact iff_of_true (.inl (Workload.planOf_of_invalid _ hclass)) hclass
  · obtain ⟨plan, hplan⟩ := single.plans n ⟨hn, hclass⟩
    rw [hplan] at sound
    refine iff_of_false ?_ hclass
    rintro (hskip | ⟨x, hx, -⟩)
    · cases hplan.symm.trans hskip
      exact hclass (sound.1.1 rfl)
    · cases hplan.symm.trans hx

theorem plannable : s.Plannable := by
  intro id n x hn hx
  obtain ⟨hmem, -⟩ := (s.built.lookup_iff id n).1 hn
  by_cases hclass : n.nodeClass = .invalid
  · cases (Workload.planOf_of_invalid _ hclass).symm.trans hx
  · obtain ⟨plan, hplan⟩ := single.plans n ⟨hmem, hclass⟩
    cases hplan.symm.trans hx

end SingleAssignment

/-! ### What the tracker knows -/

/-- Nodes that ended have mentioned a tensor. -/
def Mentioned (s : Setup) (records : SortedMap NodeId Record) (e : Mention) : Prop :=
  ∃ n, s.Valid n ∧ ∃ r finish, records.find? n.id = some r ∧ r.finish = some finish ∧
    e ∈ n.mentions r.start finish

/-- **The tracker logs what the nodes that ended mention**, and has the intervals of those in flight. -/
structure Tracks (s : Setup) (st : Statistics) (tracker : Tracker) (log : List Mention) : Prop where
  memory : st.memory = some tracker
  logs : tracker.Logs log
  permits : log.Pairwise Mention.Permits
  mentions : ∀ e, e ∈ log ↔ s.Mentioned st.records e
  opened : ∀ id r, st.records.find? id = some r → r.finish = none →
    tracker.opened.find? id = some r.start

/-- The tracker is right. -/
def Tracked (s : Setup) (st : Statistics) : Prop := ∃ tracker log, s.Tracks st tracker log

namespace Tracked

variable {s : Setup} {st : Statistics} {id : NodeId} {tick : Tick}

/-- A new record without end mentions nothing, nor does one of a node of the invalid kind. -/
theorem mentioned_insert {records : SortedMap NodeId Record} {r : Record}
    (hnone : records.find? id = none)
    (silent : r.finish = none ∨ ∀ n ∈ s.trace, n.id = id → n.nodeClass = .invalid) (e : Mention) :
    s.Mentioned (records.insert id r) e ↔ s.Mentioned records e := by
  refine exists_congr fun n => and_congr_right fun hn => exists_congr fun r' =>
    exists_congr fun finish => ?_
  by_cases hid : n.id = id
  · rw [hid, SortedMap.find?_insert_self, hnone]
    refine iff_of_false ?_ (by simp)
    rintro ⟨⟨⟩, hfinish, -⟩
    rcases silent with hopen | hinvalid
    · cases hopen.symm.trans hfinish
    · exact hn.2 (hinvalid n hn.1 hid)
  · rw [SortedMap.find?_insert_of_ne _ _ hid]

/-- A record that is closed mentions what its node does. -/
theorem mentioned_close {records : SortedMap NodeId Record} {n : Node} {r : Record} (hn : s.Valid n)
    (hr : records.find? n.id = some r) (hopen : r.finish = none) (e : Mention) :
    s.Mentioned (records.insert n.id { r with finish := some tick }) e ↔
      s.Mentioned records e ∨ e ∈ n.mentions r.start tick := by
  constructor
  · rintro ⟨n', hn', r', finish, hr', hfinish, he⟩
    rcases SortedMap.eq_or_find?_of_insert hr' with ⟨hid, rfl⟩ | hr'
    · cases s.built.eq_of_id_eq hn.1 hn'.1 hid
      cases hfinish
      exact .inr he
    · exact .inl ⟨n', hn', r', finish, hr', hfinish, he⟩
  · rintro (⟨n', hn', r', finish, hr', hfinish, he⟩ | he)
    · have hid : n'.id ≠ n.id := fun hid => by
        cases hr.symm.trans (hid ▸ hr')
        cases hopen.symm.trans hfinish
      exact ⟨n', hn', r', finish, by rwa [SortedMap.find?_insert_of_ne _ _ hid], hfinish, he⟩
    · exact ⟨n, hn, _, tick, SortedMap.find?_insert_self _ _ _, rfl, he⟩

/-- The record of a node is opened. -/
theorem openRecord (h : s.Tracked st) (hnone : st.records.find? id = none) {c : NodeClass}
    (hc : OperatorType.ofClass c ≠ .invalid) (metrics : Option Metrics) :
    s.Tracked (st.openRecord id c tick metrics) := by
  obtain ⟨tracker, log, tracks⟩ := h
  refine ⟨tracker.recordStart id tick, log, ?_, tracks.logs.congr rfl rfl rfl, tracks.permits,
    fun e => (tracks.mentions e).trans (mentioned_insert hnone (.inl rfl) e).symm, ?_⟩
  · simp [Statistics.openRecord, Statistics.recordStart, hc, tracks.memory]
  · intro id' r hr hopen
    rw [Tracker.recordStart, SortedMap.find?_insert]
    simp only [Statistics.openRecord, SortedMap.find?_insert] at hr
    split at hr
    next hid =>
      cases hr
      rw [if_pos hid]
    next hid =>
      rw [if_neg hid]
      exact tracks.opened id' r hr hopen

/-- A node of the invalid kind is skipped. -/
theorem skipRecord (h : s.Tracked st) (hnone : st.records.find? id = none)
    (invalid : ∀ n ∈ s.trace, n.id = id → n.nodeClass = .invalid) :
    s.Tracked (st.skipRecord id tick) := by
  obtain ⟨tracker, log, tracks⟩ := h
  refine ⟨tracker, log, tracks.memory, tracks.logs, tracks.permits,
    fun e => (tracks.mentions e).trans (mentioned_insert hnone (.inr invalid) e).symm, ?_⟩
  intro id' r hr hopen
  rcases SortedMap.eq_or_find?_of_insert hr with ⟨-, rfl⟩ | hr
  · cases hopen
  · exact tracks.opened id' r hr hopen

/-- The run is summed up. -/
theorem reported (h : s.Tracked st) (timeline : Timeline) (report : Report) :
    s.Tracked (st.reported timeline report) := by
  obtain ⟨tracker, log, tracks⟩ := h
  exact ⟨{ tracker with timeline }, log, by simp [Statistics.reported, tracks.memory],
    tracks.logs.congr rfl rfl rfl, tracks.permits, tracks.mentions, tracks.opened⟩

end Tracked

/-! ### Nodes that end -/

namespace SingleAssignment

variable {s : Setup} (single : s.SingleAssignment) {n n' : Node}

include single

/-- A mention of a node contradicts a mention only of a node that comes after it, or of itself. -/
theorem permits_of_not_after (hn : s.Valid n) (hn' : s.Valid n')
    (hafter : ¬TransGen s.Parent n'.id n.id) {start finish start' finish' : Tick} {e e' : Mention}
    (he : e ∈ n.mentions start finish) (he' : e' ∈ n'.mentions start' finish')
    (distinct : e.isWrite = true → e'.isWrite = true → n' ≠ n) : e.Permits e' := by
  obtain ⟨hlist, -⟩ := Node.mem_mentions.1 he
  obtain ⟨hlist', -⟩ := Node.mem_mentions.1 he'
  have hmem : e.tensor ∈ n.tensors :=
    List.mem_append.2 (hlist.imp (fun h => h.2) fun h => h.2)
  have hmem' : e'.tensor ∈ n'.tensors :=
    List.mem_append.2 (hlist'.imp (fun h => h.2) fun h => h.2)
  refine fun hname => ⟨single.sizes n n' hn hn' _ hmem _ hmem' hname, ?_⟩
  rcases hlist' with ⟨hread', -⟩ | ⟨hwrite', hwritten'⟩
  · exact hread'
  · rcases hlist with ⟨-, hread⟩ | ⟨hwrite, hwritten⟩
    · exact absurd (single.ordered n n' hn hn' _ hread _ hwritten' hname) hafter
    · exact absurd (single.writer_unique hn hn' hwritten hwritten' hname) (distinct hwrite hwrite')

/-- **A node that ends contradicts no mention before.**  Whoever read a tensor that it writes would have
come after it. -/
theorem permits {st : Statistics} {capacity : Capacity} {tick : Tick}
    (timing : Timing s.graph capacity st.records tick) {tracker : Tracker} {log : List Mention}
    (tracks : s.Tracks st tracker log) (hn : s.Valid n)
    (hrunning : Record.running st.records n.id = true) (start finish : Tick) :
    (log ++ n.mentions start finish).Pairwise Mention.Permits := by
  -- a read of a node contradicts none of its mentions, and its writes have different names
  have hread (t : Tensor) (ht : t ∈ n.readTensors) {e : Mention} (he : e ∈ n.mentions start finish) :
      (Mention.ofRead n.id start finish t).Permits e :=
    single.permits_of_not_after hn hn (single.acyclic n.id)
      (Node.mem_mentions.2 ⟨.inl ⟨rfl, ht⟩, rfl⟩) he fun hwrite => by cases hwrite
  refine List.pairwise_append.2 ⟨tracks.permits, List.pairwise_append.2 ⟨?_, ?_, ?_⟩, ?_⟩
  · refine List.pairwise_map.2 (List.pairwise_of_forall_mem_list fun t ht t' ht' => hread t ht ?_)
    exact List.mem_append_left _ (List.mem_map_of_mem ht')
  · refine List.pairwise_map.2 ((List.pairwise_map.1 (single.nodup_written hn)).imp ?_)
    exact fun hne hname => absurd hname.symm hne
  · intro e he e' he'
    obtain ⟨t, ht, rfl⟩ := List.mem_map.1 he
    exact hread t ht (List.mem_append_right _ he')
  · intro e he e' he'
    obtain ⟨n', hn', r, finish', hr, hfinish', he⟩ := (tracks.mentions e).1 he
    obtain ⟨r₀, hr₀, hopen⟩ := Record.running_iff.1 hrunning
    refine single.permits_of_not_after hn' hn (fun hafter => ?_) he he' fun _ _ heq => ?_
    · obtain ⟨rp, finishp, hrp, hfinishp, -⟩ := timing.ancestor_finish hafter hr
      cases hr₀.symm.trans hrp
      cases hopen.symm.trans hfinishp
    · subst heq
      cases hr₀.symm.trans hr
      cases hopen.symm.trans hfinish'

/-- Its record is closed, and its mentions are logged. -/
theorem recordEnd {st : Statistics} {capacity : Capacity} {tick : Tick}
    (timing : Timing s.graph capacity st.records tick) (h : s.Tracked st) (hn : s.Valid n)
    {r : Record} (hr : st.records.find? n.id = some r) (hopen : r.finish = none)
    (htype : r.operatorType ≠ .invalid) (j : Array Entry) :
    Ends (Statistics.recordEnd n tick) ⟨st, j⟩ (fun _ t => s.Tracked t.state) fun _ _ => False := by
  obtain ⟨tracker, log, tracks⟩ := h
  have hpermits := single.permits timing tracks hn (Record.running_iff.2 ⟨r, hr, hopen⟩) r.start tick
  have hbegun : ¬tick < r.start := Nat.not_lt.2 (timing.begun n.id r hr)
  have hrecords := tracks.logs.recordEnd tracks.permits
    (tracks.opened n.id r hr hopen) (single.inputs n hn) (single.outputs n hn) tick j
  simp only [Statistics.recordEnd, ends_bind, ends_get, hr, hbegun, if_false, ends_put,
    Statistics.onMemory, tracks.memory, htype, ne_eq, not_false_eq_true, if_true, ends_on]
  refine hrecords.imp ?_ fun _ _ hnot => hnot hpermits
  rintro _ ⟨tracker', j'⟩ ⟨-, hlogs, hopened⟩
  refine ⟨tracker', _, rfl, hlogs, hpermits, fun e => ?_, fun id r' hr' hopen' => ?_⟩
  · rw [List.mem_append, tracks.mentions, Tracked.mentioned_close hn hr hopen]
  · simp only [SortedMap.find?_insert] at hr'
    split at hr'
    · cases hr'
      cases hopen'
    next hid =>
      rw [hopened, SortedMap.find?_erase_of_ne _ hid]
      exact tracks.opened id r' hr' hopen'

end SingleAssignment

/-! ### Drains, completions and calls -/

section

variable {s : Setup} (single : s.SingleAssignment) {κ : Type} [Kernel κ] {m m' : Moment κ}

include single

/-- What a drain does with a node keeps the tracker right. -/
theorem Tracked.offer (hc : Coherent s m) (h : s.Tracked m.workload.statistics) (offer : Offer m m') :
    s.Tracked m'.workload.statistics := by
  cases offer with
  | block front full => exact h
  | skip front room skips freed =>
      obtain ⟨hn, hid, hnone, -⟩ := hc.front front
      rw [hid]
      refine h.skipRecord hnone fun n' hn' hid' => ?_
      obtain ⟨hmem, -⟩ := (s.built.lookup_iff _ _).1 hn
      cases hn.symm.trans ((s.built.lookup_iff _ _).2 ⟨hn', hid'⟩)
      exact (single.skips_iff hmem).1 ((hc.skips_iff _ _).1 skips)
  | start front room planned starts takes =>
      obtain ⟨-, -, hnone, -⟩ := hc.front front
      exact h.openRecord hnone (Coherent.ofClass_ne planned (by rintro rfl; cases starts)) _
  | gather front room planned gathers gives registered =>
      obtain ⟨-, -, hnone, -⟩ := hc.front front
      exact h.openRecord hnone (Coherent.ofClass_ne planned (by rintro rfl; cases gathers)) _

theorem Tracked.offers (hc : Coherent s m) (h : s.Tracked m.workload.statistics)
    (offers : ReflTransGen Offer m m') : s.Tracked m'.workload.statistics := by
  induction offers with
  | refl => exact h
  | tail hoffers hoffer ih => exact ih.offer single (hc.moves (Move.of_offers hoffers)) hoffer

/-- A drain stops with no error. -/
theorem SingleAssignment.not_refuses (hc : Coherent s m) {x : ReplayError}
    (refuses : Refuses m (.error x) m') : False := by
  obtain ⟨id, n, hn, -, hx, hforgives⟩ := refuses.refused hc
  rw [single.plannable id n x hn hx] at hforgives
  cases hforgives

open Engine

/-- A whole drain keeps the tracker right. -/
theorem Tracked.drain (hc : Coherent s m) (h : s.Tracked m.workload.statistics) (j : Array Entry) :
    Ends (drain : Act κ Unit) ⟨m.toEngine, j⟩
      (fun _ t => s.Tracked t.state.workload.statistics) fun stop _ => ∀ x, stop ≠ .error x := by
  refine ends_drain.imp ?_ ?_
  · rintro _ t ⟨_, ⟨m₁, held, offers, -, -, rfl⟩, ht⟩
    have htracked := h.offers single hc offers
    rwa [← ht]
  · rintro stop t ⟨m₁, m', offers, refuses, -⟩ x rfl
    exact single.not_refuses (hc.moves (Move.of_offers offers)) refuses

/-- What is done with a node that an event brings back keeps the tracker right. -/
theorem Tracked.retire (hc : Coherent s m) (hp : Punctual s m) (h : s.Tracked m.workload.statistics)
    {event : Event} {id : NodeId} {c : NodeClass} {w : Workload}
    (arrives : Arrives m.workload event id c w) (j : Array Entry) :
    Ends (retire id c : Act κ Unit) ⟨{ m.toEngine with workload := w }, j⟩
      (fun _ t => s.Tracked t.state.workload.statistics) fun stop _ => ∀ x, stop ≠ .error x := by
  obtain ⟨hgraph, hstatistics, -⟩ := arrives.keeps
  obtain ⟨hrunning, -⟩ := hc.custody.of_arrives arrives
  obtain ⟨r, hr, hopen⟩ := Record.running_iff.1 hrunning
  obtain ⟨n, found, hn⟩ := hc.present_of_running hrunning
  obtain ⟨hmem, rfl⟩ := (s.built.lookup_iff id n).1 hn
  have valid : s.Valid n :=
    ⟨hmem, fun hclass => hc.not_skips_of_running hrunning hn ((single.skips_iff hmem).2 hclass)⟩
  simp only [Engine.retire, ends_bind, ends_now, ends_lookup, hgraph, found]
  refine ends_traceLine fun j => ?_
  simp only [Engine.recordEnd, ends_bind, ends_outcome, onStatistics, ends_on, hstatistics]
  refine (single.recordEnd hp h valid hr hopen (hc.custody.busy n.id r hr hopen) j).imp ?_
    fun _ _ hfalse => hfalse.elim
  -- slots and graph do not matter to the tracker
  rintro _ t htracked
  refine ends_release (fun j _ => ?_) fun f _ _ _ _ x hx => by cases hx
  simp only [ends_changeGraph]
  split
  · exact htracked
  · exact fun x hx => by cases hx

/-- **What is done with an event keeps the tracker right**, and stops with no error. -/
theorem Tracked.turn (hc : Coherent s m) (hp : Punctual s m) (h : s.Tracked m.workload.statistics)
    (event : Event) (j : Array Entry) :
    Ends (turn event : Act κ Unit) ⟨m.toEngine, j⟩
      (fun _ t => s.Tracked t.state.workload.statistics) fun stop _ => ∀ x, stop ≠ .error x := by
  by_cases hwake : event = .wake
  · subst hwake
    exact Tracked.drain single (m := { m with delivered := .wake :: m.delivered })
      (hc.move (.wake m)) h j
  · rw [turn_eq hwake, ends_bind]
    refine ((ends_arrive hwake).and (ends_arrive_faults event)).imp ?_ fun _ _ hstop => hstop.2
    rintro (_ | ⟨id, c⟩) t
    · rintro ⟨⟨m', ⟨⟩, ht⟩, -⟩
      rw [ends_pure, ← ht]
      exact h
    · rintro ⟨⟨w, arrives, ht⟩, -⟩
      rw [show t = ⟨{ m.toEngine with workload := w }, t.journal⟩ by rw [← ht]]
      simp only [finishNode_eq, ends_bind]
      refine ((Tracked.retire single hc hp h arrives _).and (ends_retire arrives)).imp ?_
        fun _ _ hstop => hstop.1
      rintro _ t ⟨htracked, m₁, m₂, rest, closes, frees, -, ht⟩
      rw [← ht] at htracked
      rw [show t = ⟨m₂.toEngine, t.journal⟩ by rw [ht]]
      exact (Tracked.drain single ((hc.close closes).free frees) htracked _).imp
        (fun _ _ htracked => htracked) fun _ _ hstop => hstop

/-- A call that goes on keeps the tracker right, and stops with no error. -/
theorem Tracked.call (hc : Coherent s m) (hp : Punctual s m) (h : s.Tracked m.workload.statistics)
    (event : Event) (goesOn : m.workload.isFinished = false) (j : Array Entry) :
    Ends (call event : Act κ Unit) ⟨m.toEngine, j⟩
      (fun _ t => s.Tracked t.state.workload.statistics) fun stop _ => ∀ x, stop ≠ .error x := by
  simp only [call_eq, workloadOf, ends_bind, ends_get, ends_pure, goesOn, Bool.false_eq_true,
    ↓reduceIte]
  refine ((Tracked.turn single hc hp h event j).and ends_turn).imp ?_ fun _ _ hstop => hstop.1
  rintro _ t ⟨htracked, m₁, turn, ht⟩
  rw [← ht] at htracked
  rw [show t = ⟨m₁.toEngine, t.journal⟩ by rw [ht]]
  simp only [checkTermination, workloadOf, ends_bind, ends_get, ends_pure, ends_ite]
  refine ⟨fun _ => htracked, fun idle => ?_⟩
  simp only [Bool.or_eq_true, Bool.not_eq_true', not_or, Bool.not_eq_true, Bool.not_eq_false] at idle
  simp only [ends_now, ends_updateWorkload, ends_note, onStatistics, ends_on]
  refine ends_iff.2 ⟨fun _ t hsum => ?_, fun stop t hsum x hx => ?_⟩
  · obtain ⟨timeline, report, ht, -⟩ := (Statistics.ends_summarize_reported _ _).of_ok hsum
    simp only [Statistics.noteReport, ends_bind, ends_get]
    refine ends_forM_note _ fun j => ?_
    rw [ht]
    exact htracked.reported timeline report
  · -- all nodes have ended
    subst hx
    exact unfinished_of_summarize hsum ((hc.moves turn.moves).unfinished_eq_none idle.1)

end

/-! ### Whole runs -/

section

variable {s : Setup} {c : AnalyticalConfig}

/-- Before anything is done the tracker is right. -/
theorem tracked_initial (tracked : s.config.trackMemory = true) {κ : Type} (k : κ) :
    s.Tracked (s.engine k).workload.statistics := by
  obtain ⟨-, group, hw⟩ := s.created_iff
  refine ⟨{ sysId := s.config.sysId }, [], ?_, .initial _, .nil, fun e => ?_, fun id r hr => ?_⟩
  · simp only [Setup.engine, hw, Workload.initial, Statistics.ofSystem, tracked, ↓reduceIte]
  · refine iff_of_false List.not_mem_nil ?_
    rintro ⟨n, -, r, finish, hr, -⟩
    simp only [Setup.engine, hw] at hr
    cases hr
  · simp only [Setup.engine, hw] at hr
    cases hr

/-- **In a whole run the tracker stays right**, and no call returns an error. -/
theorem SingleAssignment.ends_run (single : s.SingleAssignment) (j : Array Entry) :
    Ends Replay.run ⟨s.engine { config := c }, j⟩
      (fun _ t => s.Tracked t.state.workload.statistics)
      fun stop _ => ∀ x, stop = .error x → ∃ left, x = .stalled left := by
  have hinitial := AtRest.initial s ({ config := c } : Analytical)
  have hunfinished := s.isFinished_moment ({ config := c } : Analytical)
  refine Replay.ends_run_of_next (I := fun t => s.Tracked t.state.workload.statistics)
    (E := fun stop => ∀ x, stop = .error x → ∃ left, x = .stalled left) ?_ ?_ ?_
  · intro m event k j rests goesOn next htracked
    obtain ⟨calls, -, -, hrest, hprepared⟩ := rests.atRest
    obtain ⟨-, later, -⟩ := hprepared.next next
    have hlater := hrest.later later
    exact (htracked.call single (m := { m with kernel := k }) hlater.coherent
      (hlater.punctual Analytical.conforms.toSteady) event goesOn j).imp (fun _ _ h => h)
      fun stop _ hstop x hx => absurd hx (hstop x)
  · exact fun left x hx => ⟨left, (Stop.error.inj hx).symm⟩
  · exact (Tracked.call single (m := s.moment ({ config := c } : Analytical)) hinitial.coherent
      (hinitial.punctual Analytical.conforms.toSteady) (tracked_initial single.tracked _) .wake
      hunfinished j).imp (fun _ _ h => h) fun stop _ hstop x hx => absurd hx (hstop x)

/-- Without cycles a whole run does not stall. -/
theorem SingleAssignment.not_stalled (single : s.SingleAssignment) {left : Nat}
    {m : Moment Analytical} (h : s.Breaks c (.error (.stalled left)) m) : False := by
  have halts {event : Event} {m₀ : Moment Analytical} (hc : Coherent s m₀)
      (halts : Halts event m₀ (.error (.stalled left)) m) : False := by
    obtain ⟨_, ⟨⟩, hforgives, hplan | ⟨-, ⟨⟩⟩⟩ | ⟨_, ⟨⟩, -⟩ := halts.reason hc
    obtain ⟨id, n, hn, hx⟩ := hplan
    rw [single.plannable id n _ hn hx] at hforgives
    cases hforgives
  cases h with
  | fire h => exact halts (AtRest.initial s _).coherent h
  | next rests goesOn next h => exact halts (rests.coherent.1.withKernel _) h
  | stall rests goesOn none =>
      obtain ⟨calls, quiet, fired, hrest, hprepared⟩ := rests.atRest
      have answered : Answered calls m.toEngine := fun event => by
        rw [← hrest.delivered]
        exact hprepared.none none event
      cases goesOn.symm.trans ((hrest.exhausted quiet fired answered).finished.2 single.acyclic)

end

/-! ### What the tracker says at the end -/

/-- Some node of the trace writes a tensor. -/
def Writes (s : Setup) (name : String) : Prop :=
  ∃ n, s.Valid n ∧ ∃ t ∈ n.writtenTensors, t.name = name

/-- **What the tracker says of the tensors at the end of a run.**  The records are those of the run, which
has ended at a tick. -/
structure Faithful (s : Setup) (records : SortedMap NodeId Record) (tracker : Tracker) (tick : Tick) :
    Prop where
  /-- A tensor that a node writes was written while that node was active. -/
  written : ∀ n, s.Valid n → ∀ t ∈ n.writtenTensors, ∃ r finish, records.find? n.id = some r ∧
    r.finish = some finish ∧ tracker.writes.find? t.name = some ⟨r.start, finish, some n.id⟩
  /-- A tensor that a node reads was read while that node was active, and there is a write of it. -/
  read : ∀ n, s.Valid n → ∀ t ∈ n.readTensors, (∃ w, tracker.writes.find? t.name = some w) ∧
    ∃ r finish, records.find? n.id = some r ∧ r.finish = some finish ∧
      ⟨r.start, finish, some n.id⟩ ∈ tracker.readsOf t.name
  /-- Exactly the tensors that no node writes are taken to have been there. -/
  assumed : ∀ name w, tracker.writes.find? name = some w → (w.isAssumed = true ↔ ¬s.Writes name)
  /-- Whatever was done with a tensor was done while it was in memory, and that within the run. -/
  covered : ∀ name a, tracker.writes.find? name = some a ∨ a ∈ tracker.readsOf name →
    ∃ l, tracker.timeline.lifetime? name = some l ∧ l.alloc ≤ a.start ∧ a.start ≤ a.finish ∧
      a.finish ≤ l.free ∧ l.free ≤ tick

namespace Tracks

variable {s : Setup} {st : Statistics} {tracker : Tracker} {log : List Mention} {capacity : Capacity}
variable {tick : Tick} {name : String} {w a : Activity}

/-- What a tensor was written or read over lies in the past. -/
theorem interval (tracks : s.Tracks st tracker log) (timing : Timing s.graph capacity st.records tick)
    {e : Mention} (he : e ∈ log) : e.activity.start ≤ e.activity.finish ∧ e.activity.finish ≤ tick := by
  obtain ⟨n, -, r, finish, hr, hfinish, hmention⟩ := (tracks.mentions e).1 he
  obtain ⟨-, hactivity⟩ := Node.mem_mentions.1 hmention
  rw [hactivity]
  exact timing.interval n.id r finish hr hfinish

theorem write_interval (tracks : s.Tracks st tracker log)
    (timing : Timing s.graph capacity st.records tick) (hw : tracker.writes.find? name = some w) :
    w.start ≤ w.finish ∧ w.finish ≤ tick := by
  rcases tracks.logs.write_cases hw with ⟨e, he, -, -, rfl⟩ | ⟨-, -, -, -, rfl⟩
  · exact tracks.interval timing he
  · exact ⟨Nat.le_refl 0, Nat.zero_le tick⟩

/-- A tensor is read after its write has begun. -/
theorem start_le (tracks : s.Tracks st tracker log) (timing : Timing s.graph capacity st.records tick)
    (single : s.SingleAssignment) (hw : tracker.writes.find? name = some w)
    (ha : a ∈ tracker.readsOf name) : w.start ≤ a.start := by
  obtain ⟨e, he, hread, hname, rfl⟩ := tracks.logs.mem_readsOf_iff.1 ha
  rcases tracks.logs.write_cases hw with ⟨e', he', hwrite', hname', rfl⟩ | ⟨-, -, -, -, rfl⟩
  · -- the writer is an ancestor of the reader
    obtain ⟨n, hn, r, finish, hr, hfinish, hmention⟩ := (tracks.mentions e).1 he
    obtain ⟨n', hn', r', finish', hr', hfinish', hmention'⟩ := (tracks.mentions e').1 he'
    obtain ⟨⟨-, hmem⟩ | ⟨hwrite, -⟩, hactivity⟩ := Node.mem_mentions.1 hmention
    · obtain ⟨⟨hread', -⟩ | ⟨-, hmem'⟩, hactivity'⟩ := Node.mem_mentions.1 hmention'
      · cases hread'.symm.trans hwrite'
      · have hancestor := single.ordered n n' hn hn' _ hmem _ hmem' (hname'.trans hname.symm)
        obtain ⟨rp, finishp, hrp, hfinishp, hle⟩ := timing.ancestor_finish hancestor hr
        cases hr'.symm.trans hrp
        rw [hactivity, hactivity']
        exact Nat.le_trans (timing.interval _ _ _ hr' hfinishp).1 hle
    · cases hread.symm.trans hwrite
  · exact Nat.zero_le _

/-- **The lifetime of a tensor covers all that was done with it.** -/
theorem covered (tracks : s.Tracks st tracker log) (timing : Timing s.graph capacity st.records tick)
    (single : s.SingleAssignment)
    (access : tracker.writes.find? name = some a ∨ a ∈ tracker.readsOf name) :
    ∃ w, tracker.writes.find? name = some w ∧ (tracker.lifetimeOf name w).alloc ≤ a.start ∧
      a.start ≤ a.finish ∧ a.finish ≤ (tracker.lifetimeOf name w).free ∧
      (tracker.lifetimeOf name w).free ≤ tick := by
  have hreads {a : Activity} (ha : a ∈ tracker.readsOf name) : a.start ≤ a.finish ∧ a.finish ≤ tick := by
    obtain ⟨e, he, -, -, rfl⟩ := tracks.logs.mem_readsOf_iff.1 ha
    exact tracks.interval timing he
  have hfree {w : Activity} (hw : tracker.writes.find? name = some w) :
      (tracker.lifetimeOf name w).free ≤ tick := by
    refine Counter.foldl_max_le_iff.2 ⟨(tracks.write_interval timing hw).2, fun finish hfinish => ?_⟩
    obtain ⟨a, ha, rfl⟩ := List.mem_map.1 hfinish
    exact (hreads ha).2
  rcases access with hw | ha
  · exact ⟨a, hw, Nat.le_refl _, (tracks.write_interval timing hw).1,
      (Counter.foldl_max_le_iff.1 (Nat.le_refl _)).1, hfree hw⟩
  · obtain ⟨e, he, -, rfl, -⟩ := tracks.logs.mem_readsOf_iff.1 ha
    obtain ⟨w, hw⟩ := tracks.logs.writes_of_mem he
    exact ⟨w, hw, tracks.start_le timing single hw ha, (hreads ha).1,
      Counter.le_foldl_max _ (List.mem_map_of_mem ha), hfree hw⟩

/-- Once all nodes have ended the tracker says of each tensor what was done with it. -/
theorem faithful (tracks : s.Tracks st tracker log) (timing : Timing s.graph capacity st.records tick)
    (single : s.SingleAssignment) (ended : ∀ n ∈ s.trace, Record.ended st.records n.id = true)
    (built : tracker.timelineOf = .ok tracker.timeline) : s.Faithful st.records tracker tick := by
  have hwritten : ∀ n, s.Valid n → ∀ t ∈ n.writtenTensors, ∃ r finish,
      st.records.find? n.id = some r ∧ r.finish = some finish ∧
        tracker.writes.find? t.name = some ⟨r.start, finish, some n.id⟩ := by
    intro n hn t ht
    obtain ⟨r, finish, hr, hfinish⟩ := Record.ended_iff.1 (ended n hn.1)
    have hmem : Mention.ofWrite n.id r.start finish t ∈ log :=
      (tracks.mentions _).2 ⟨n, hn, r, finish, hr, hfinish, Node.mem_mentions.2 ⟨.inr ⟨rfl, ht⟩, rfl⟩⟩
    exact ⟨r, finish, hr, hfinish, tracks.logs.writes_of_write tracks.permits hmem rfl⟩
  refine ⟨hwritten, fun n hn t ht => ?_, fun name w hw => ?_, fun name a access => ?_⟩
  · obtain ⟨r, finish, hr, hfinish⟩ := Record.ended_iff.1 (ended n hn.1)
    have hmem : Mention.ofRead n.id r.start finish t ∈ log :=
      (tracks.mentions _).2 ⟨n, hn, r, finish, hr, hfinish, Node.mem_mentions.2 ⟨.inl ⟨rfl, ht⟩, rfl⟩⟩
    exact ⟨tracks.logs.writes_of_mem hmem, r, finish, hr, hfinish,
      tracks.logs.mem_readsOf_iff.2 ⟨_, hmem, rfl, rfl, rfl⟩⟩
  · constructor
    · rintro hassumed ⟨n, hn, t, ht, rfl⟩
      obtain ⟨r, finish, -, -, hfind⟩ := hwritten n hn t ht
      cases hw.symm.trans hfind
      cases hassumed
    · intro unwritten
      rcases tracks.logs.write_cases hw with ⟨e, he, hwrite, hname, -⟩ | ⟨-, -, -, -, rfl⟩
      · obtain ⟨n, hn, r, finish, -, -, hmention⟩ := (tracks.mentions e).1 he
        obtain ⟨⟨hread, -⟩ | ⟨-, hmem⟩, -⟩ := Node.mem_mentions.1 hmention
        · cases hread.symm.trans hwrite
        · exact absurd ⟨n, hn, _, hmem, hname⟩ unwritten
      · rfl
  · obtain ⟨w, hw, hcovered⟩ := tracks.covered timing single access
    exact ⟨tracker.lifetimeOf name w, tracker.lifetime?_of_timelineOf built hw, hcovered⟩

end Tracks

/-- **Traces that write each tensor once are always tracked faithfully.**  A whole run of such a trace ends,
whatever the kernel and its costs, unless a counter leaves its range; and what its timeline and its tables
say of the tensors is what the nodes did with them. -/
theorem tracked_faithfully (s : Setup) (single : s.SingleAssignment) (c : AnalyticalConfig)
    (j : Array Entry) :
    Ends Replay.run ⟨s.engine { config := c }, j⟩
      (fun tick t => ∃ tracker report memory, t.state.workload.statistics.memory = some tracker ∧
        t.state.workload.report = some report ∧ report.memory = some memory ∧
        memory.timeline = tracker.timeline ∧
        s.Faithful t.state.workload.statistics.records tracker tick)
      fun stop _ => ∃ f, stop = .fault f ∧ f.isOverflow = true := by
  refine ((single.ends_run j).and Replay.ends_run_rests).imp ?_ ?_
  · rintro tick t ⟨⟨tracker, log, tracks⟩, htick, ⟨report, hreport, sums⟩, m, rests, hm, rfl⟩
    obtain ⟨built, memory, hmemory, htimeline⟩ := sums.timeline_eq tracks.memory
    rw [← hm] at htick tracks ⊢
    have finished : m.workload.isFinished = true := by rw [Workload.isFinished, htick]; rfl
    have ended : ∀ n ∈ s.trace, Record.ended m.workload.statistics.records n.id = true := fun n hn =>
      (rests.ended_iff (.inl finished) ((s.built.lookup_iff n.id n).2 ⟨hn, rfl⟩)).2
        (s.acyclic_iff.1 single.acyclic n.id)
    exact ⟨tracker, report, memory, tracks.memory, by rw [hm]; exact hreport, hmemory, htimeline,
      tracks.faithful rests.punctual single ended built⟩
  · rintro stop t ⟨herror, m, breaks, -⟩
    cases stop with
    | fault f => exact ⟨f, rfl, breaks.isOverflow⟩
    | error x =>
        obtain ⟨left, rfl⟩ := herror x rfl
        exact (single.not_stalled breaks).elim

/-- A node on the CPU makes a tensor of one that was there, and one on the GPU reads it. -/
@[irreducible] def relay : Setup :=
  .ofTrace { trackMemory := true } [
    { id := 1, name := "make", kind := .compute, dataDeps := [], ctrlDeps := []
      attributes := { runtime := some 1, inputs := some ["x", "2"], outputs := some ["a", "4"] } },
    { id := 2, name := "use", kind := .compute, dataDeps := [1], ctrlDeps := []
      attributes := {
        runtime := some 2, isCpuOp := some false
        inputs := some ["a", "4"], outputs := some [] } }]

theorem tracked_faithfully_relay : relay.SingleAssignment ∧
    Ends Replay.run ⟨relay.engine { config := {} }, #[]⟩
      (fun tick t => ∃ tracker, t.state.workload.statistics.memory = some tracker ∧
        relay.Faithful t.state.workload.statistics.records tracker tick ∧
        tracker.timeline.lifetime? "a" = some ⟨0, 3000⟩)
      fun _ _ => False := by
  have holds {ε α : Type} {P : Node → Except ε α}
      (h : ∀ n ∈ relay.trace, (P n).toOption.isSome = true) (n : Node) (hn : relay.Valid n) :
      ∃ a, P n = .ok a := Except.exists_ok_of_isSome (h n hn.1)
  have single : relay.SingleAssignment := {
    acyclic := acyclic_of_ascending (by decide +kernel)
    tracked := by decide +kernel
    plans := holds (P := relay.workload.planOf) (by decide +kernel)
    inputs := holds (by decide +kernel)
    outputs := holds (by decide +kernel)
    sizes := fun n n' hn hn' => (by decide +kernel : ∀ n ∈ relay.trace, ∀ n' ∈ relay.trace,
      ∀ t ∈ n.tensors, ∀ t' ∈ n'.tensors, t'.name = t.name → t'.size = t.size) n hn.1 n' hn'.1
    once := by decide +kernel
    ordered := fun reader writer hreader hwriter t ht t' ht' hname =>
      .single ⟨reader, hreader.1, rfl, (by decide +kernel : ∀ reader ∈ relay.trace,
        ∀ writer ∈ relay.trace, ∀ t ∈ reader.readTensors, ∀ t' ∈ writer.writtenTensors,
          t'.name = t.name → writer.id ∈ reader.dataDeps ∨ writer.id ∈ reader.ctrlDeps)
        reader hreader.1 writer hwriter.1 t ht t' ht' hname⟩ }
  have hlifetime : Ends Replay.run ⟨relay.engine { config := {} }, #[]⟩
      (fun _ t => t.state.workload.statistics.memory.bind (·.timeline.lifetime? "a") = some ⟨0, 3000⟩)
      fun _ _ => False := by decide +kernel
  refine ⟨single, ((relay.tracked_faithfully single {} #[]).and hlifetime).imp ?_ fun _ _ h => h.2⟩
  rintro tick t ⟨⟨tracker, report, memory, htracker, -, -, -, hfaithful⟩, hlife⟩
  rw [htracker] at hlife
  exact ⟨tracker, htracker, hfaithful, hlife⟩

end Setup

end TraceReplay
