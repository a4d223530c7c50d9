/-
**What recording tensor traffic comes to.**

Closing the interval of a node removes that interval and no other, whatever becomes of the tensors.  It
faults only if the interval is not open, and its errors say what is wrong with the tensors.  The
timeline that is built at the end has its samples in the order of their ticks, so that its mean is
calculated without a negative difference.

Main definitions:

* `ReplayError.isTraffic` — the errors in recording tensor traffic;
* `Tracker.Spares`, `Statistics.Spares` — the intervals of all nodes but one are left as they are;
* `Tracker.InTime` — what is recorded is in the past;
* `Timeline.windows` — the samples of a timeline, each with the next one.

Main results:

* `Tracker.ends_recordEnd` — closing the interval of a node;
* `Tracker.InTime.recordEnd` — what is recorded then is in time;
* `Timeline.weighted_eq`, `Timeline.average_eq` — the sum of which the mean is taken, and the mean;
* `Statistics.bounded_buildTimeline` — building the timeline faults only if a counter leaves its range.
-/

import TraceReplay.Proofs.Action
import TraceReplay.Proofs.Counter
import TraceReplay.Proofs.SortedMap
import TraceReplay.Statistics.Basic

set_option relaxedAutoImplicit false
set_option autoImplicit false

namespace TraceReplay

open TraceReplay.Action

/-- The errors in recording tensor traffic: a list of tensors that is absent or malformed, and tensors
that contradict each other. -/
def ReplayError.isTraffic : ReplayError → Bool
  | missingAttribute .. | malformedTensorList .. | tensorSizeMismatch .. | tensorRewritten .. => true
  | _ => false

/-- A list that is there and cannot be read is malformed. -/
theorem Tensor.malformed_of_parsePairs {node : NodeId} {x : ReplayError} : ∀ {values : List String},
    parsePairs node values = .error x → ∃ reason, x = .malformedTensorList node reason
  | [], h => by cases h
  | [_], h => by cases h
  | name :: size :: rest, h => by
      rw [parsePairs] at h
      split at h
      · cases h
        exact ⟨_, rfl⟩
      · cases hrest : parsePairs node rest with
        | ok tensors =>
            rw [hrest] at h
            cases h
        | error y =>
            rw [hrest] at h
            cases h
            exact malformed_of_parsePairs hrest

/-- A list that cannot be read is absent or malformed; the error names the node. -/
theorem Node.error_of_tensorsOf {n : Node} {listName : String} {values : Option (List String)}
    {x : ReplayError} (h : n.tensorsOf listName values = .error x) :
    x = .missingAttribute n.id listName ∨ ∃ reason, x = .malformedTensorList n.id reason := by
  cases values with
  | none =>
      cases h
      exact .inl rfl
  | some values =>
      rw [Node.tensorsOf, Tensor.parseList] at h
      split at h
      · exact .inr (Tensor.malformed_of_parsePairs h)
      · cases h
        exact .inr ⟨_, rfl⟩

theorem Node.isTraffic_of_tensorsOf {n : Node} {listName : String} {values : Option (List String)}
    {x : ReplayError} (h : n.tensorsOf listName values = .error x) : x.isTraffic = true := by
  rcases error_of_tensorsOf h with rfl | ⟨reason, rfl⟩ <;> rfl

/-- A lenient run may forgive it. -/
theorem Node.isLocal_of_tensorsOf {n : Node} {listName : String} {values : Option (List String)}
    {x : ReplayError} (h : n.tensorsOf listName values = .error x) : x.isLocal = true := by
  rcases error_of_tensorsOf h with rfl | ⟨reason, rfl⟩ <;> rfl

namespace Tracker

/-! ### Closing intervals -/

/-- The intervals of all nodes but one are left as they are. -/
def Spares (id : NodeId) (m m' : Tracker) : Prop :=
  ∀ id', id' ≠ id → m'.opened.find? id' = m.opened.find? id'

/-- How recording the traffic of a node ends that has an interval: the intervals of the others are left
as they are, and an error says what is wrong with the tensors. -/
def Records (id : NodeId) (m : Tracker) (act : Action Stop Tracker Unit) (t : Logged Tracker) : Prop :=
  Ends act t (fun _ t => m.Spares id t.state) fun stop t =>
    m.Spares id t.state ∧ ∃ x, stop = .error x ∧ x.isTraffic = true

variable {m : Tracker} {id : NodeId} {t : Logged Tracker}

theorem isTraffic_of_isKnown {tensor : Tensor} {x : ReplayError}
    (h : m.isKnown tensor = .error x) : x.isTraffic = true := by
  rw [isKnown] at h
  split at h
  · cases h
  · split at h
    · cases h
    · cases h
      rfl

/-- Reading a tensor leaves the intervals alone. -/
theorem records_recordRead (node : NodeId) (start finish : Tick) (tensor : Tensor)
    (h : m.Spares id t.state) : Records id m (recordRead node start finish tensor) t := by
  simp only [Records, recordRead, ends_bind, ends_get]
  cases hknown : t.state.isKnown tensor with
  | error x => exact ⟨h, x, rfl, isTraffic_of_isKnown hknown⟩
  | ok known =>
      cases known
      · exact h
      · exact h

/-- So does writing one. -/
theorem records_recordWrite (node : NodeId) (start finish : Tick) (tensor : Tensor)
    (h : m.Spares id t.state) : Records id m (recordWrite node start finish tensor) t := by
  simp only [Records, recordWrite, ends_bind, ends_get]
  cases hknown : t.state.isKnown tensor with
  | error x => exact ⟨h, x, rfl, isTraffic_of_isKnown hknown⟩
  | ok known =>
      cases known
      · exact h
      · exact ⟨h, _, rfl, rfl⟩

/-- **Closing the interval of a node removes that interval only.**  It faults if there is none, and an
error says what is wrong with the tensors. -/
theorem ends_recordEnd {n : Node} {tick : Tick} {j : Array Entry} :
    Ends (recordEnd n tick) ⟨m, j⟩ (fun _ t => m.Spares n.id t.state) fun stop t =>
      (m.opened.find? n.id = none ∧ ∃ f, stop = .fault f) ∨
        m.Spares n.id t.state ∧ ∃ x, stop = .error x ∧ x.isTraffic = true := by
  simp only [recordEnd, ends_bind, ends_get]
  cases hopen : m.opened.find? n.id with
  | none => exact .inl ⟨rfl, _, rfl⟩
  | some start =>
      have spares (j : Array Entry) : m.Spares n.id
          (⟨{ m with opened := m.opened.erase n.id }, j⟩ : Logged Tracker).state :=
        fun id' hid => SortedMap.find?_erase_of_ne _ hid
      simp only [ends_bind, ends_put]
      cases hinputs : n.inputTensors with
      | error x => exact .inr ⟨spares j, x, rfl, Node.isTraffic_of_tensorsOf hinputs⟩
      | ok inputs =>
          cases houtputs : n.outputTensors with
          | error x => exact .inr ⟨spares j, x, rfl, Node.isTraffic_of_tensorsOf houtputs⟩
          | ok outputs =>
              show Ends (inputs.forM (recordRead n.id start tick)) _
                (fun _ t => Ends (outputs.forM (recordWrite n.id start tick)) t _ _) _
              refine (ends_forM (fun tensor _ => records_recordRead n.id start tick tensor) inputs
                (spares j)).imp (fun _ t ht => ?_) fun _ _ h => .inr h
              exact (ends_forM (fun tensor _ => records_recordWrite n.id start tick tensor) outputs
                ht).imp (fun _ _ h => h) fun _ _ h => .inr h

end Tracker

namespace Statistics

/-- Tensor traffic changes, if it is tracked, for one node. -/
def Spares (id : NodeId) : Option Tracker → Option Tracker → Prop
  | none, memory => memory = none
  | some tracker, memory => ∃ tracker', memory = some tracker' ∧ tracker.Spares id tracker'

theorem spares_refl (id : NodeId) : ∀ memory : Option Tracker, Spares id memory memory
  | none => rfl
  | some tracker => ⟨tracker, rfl, fun _ _ => rfl⟩

/-- Traffic that is not tracked stays so. -/
theorem Spares.eq_none {id : NodeId} {memory memory' : Option Tracker} (h : Spares id memory memory')
    (hnone : memory = none) : memory' = none := by
  subst hnone
  exact h

end Statistics

/-! ### Traffic in time -/

namespace Tracker

/-- What is recorded is in the past, and no interval ends before it starts. -/
structure InTime (m : Tracker) (tick : Tick) : Prop where
  opened : ∀ id start, m.opened.find? id = some start → start ≤ tick
  writes : ∀ name w, m.writes.find? name = some w → w.start ≤ w.finish ∧ w.finish ≤ tick
  reads : ∀ name, ∀ r ∈ m.readsOf name, r.start ≤ r.finish ∧ r.finish ≤ tick

namespace InTime

variable {m : Tracker} {tick : Tick}

theorem initial (sysId : Nat) (tick : Tick) : InTime { sysId } tick where
  opened := fun id start h => by cases h
  writes := fun name w h => by cases h
  reads := fun name r h => by cases h

/-- Time passes. -/
theorem later (h : m.InTime tick) {tick' : Tick} (hle : tick ≤ tick') : m.InTime tick' where
  opened := fun id start hstart => Nat.le_trans (h.opened id start hstart) hle
  writes := fun name w hw => ⟨(h.writes name w hw).1, Nat.le_trans (h.writes name w hw).2 hle⟩
  reads := fun name r hr => ⟨(h.reads name r hr).1, Nat.le_trans (h.reads name r hr).2 hle⟩

theorem recordStart (h : m.InTime tick) (id : NodeId) : (m.recordStart id tick).InTime tick :=
  { h with
    opened := fun id' start hstart => by
      rcases SortedMap.eq_or_find?_of_insert hstart with ⟨-, rfl⟩ | hstart
      · exact Nat.le_refl _
      · exact h.opened id' start hstart }

theorem enter (h : m.InTime tick) (tensor : Tensor) {write : Activity}
    (hwrite : write.start ≤ write.finish ∧ write.finish ≤ tick) : (m.enter tensor write).InTime tick :=
  { h with
    writes := fun name w hw => by
      rcases SortedMap.eq_or_find?_of_insert hw with ⟨-, rfl⟩ | hw
      · exact hwrite
      · exact h.writes name w hw
    reads := h.reads }

theorem addRead (h : m.InTime tick) (tensor : String) {read : Activity}
    (hread : read.start ≤ read.finish ∧ read.finish ≤ tick) : (m.addRead tensor read).InTime tick :=
  { h with
    reads := fun name r hr => by
      rw [readsOf, Tracker.addRead, SortedMap.find?_insert] at hr
      split at hr
      · rcases List.mem_append.1 hr with hr | hr
        · exact h.reads tensor r hr
        · cases List.mem_singleton.1 hr
          exact hread
      · exact h.reads name r hr }

/-- Closing the interval of a node at the present tick records traffic in time, also where the tensors
contradict each other. -/
theorem recordEnd (h : m.InTime tick) (n : Node) (j : Array Entry) :
    Ends (Tracker.recordEnd n tick) ⟨m, j⟩ (fun _ t => t.state.InTime tick)
      fun _ t => t.state.InTime tick := by
  simp only [Tracker.recordEnd, ends_bind, ends_get]
  cases hopen : m.opened.find? n.id with
  | none => exact h
  | some start =>
      have hstart := h.opened n.id start hopen
      have hread (tensor : Tensor) (t : Logged Tracker) (ht : t.state.InTime tick) :
          Ends (recordRead n.id start tick tensor) t (fun _ t => t.state.InTime tick)
            fun _ t => t.state.InTime tick := by
        simp only [recordRead, ends_bind, ends_get]
        cases t.state.isKnown tensor with
        | error x => exact ht
        | ok known =>
            cases known
            · exact (ht.enter tensor ⟨Nat.le_refl 0, Nat.zero_le _⟩).addRead _ ⟨hstart, Nat.le_refl _⟩
            · exact ht.addRead _ ⟨hstart, Nat.le_refl _⟩
      have hwrite (tensor : Tensor) (t : Logged Tracker) (ht : t.state.InTime tick) :
          Ends (recordWrite n.id start tick tensor) t (fun _ t => t.state.InTime tick)
            fun _ t => t.state.InTime tick := by
        simp only [recordWrite, ends_bind, ends_get]
        cases t.state.isKnown tensor with
        | error x => exact ht
        | ok known =>
            cases known
            · exact ht.enter tensor ⟨hstart, Nat.le_refl _⟩
            · exact ht
      have hclosed : InTime { m with opened := m.opened.erase n.id } tick :=
        { h with
          opened := fun id start hid => by
            rw [SortedMap.find?_erase] at hid
            split at hid
            · cases hid
            · exact h.opened id start hid
          reads := h.reads }
      simp only [ends_bind, ends_put]
      cases n.inputTensors with
      | error x => exact hclosed
      | ok inputs =>
          cases n.outputTensors with
          | error x => exact hclosed
          | ok outputs =>
              refine (ends_forM (P := fun t : Logged Tracker => t.state.InTime tick) hread inputs
                hclosed).imp (fun _ t ht => ?_) fun _ _ ht => ht
              exact ends_forM (P := fun t : Logged Tracker => t.state.InTime tick) hwrite outputs ht

end InTime

end Tracker

/-! ### The timeline -/

namespace Tracker

variable {m : Tracker}

theorem bounded_bytesOf (live : List String) : Bounded (m.bytesOf live) :=
  .foldlM _ fun _ _ _ => .add _ _

theorem bounded_sweep (ls : List (String × Lifetime)) : ∀ (ts : List Tick) (live : List String),
    Bounded (m.sweep ls live ts) := by
  intro ts
  induction ts with
  | nil => exact fun _ => .ok []
  | cons t ts ih =>
      intro live
      exact (bounded_bytesOf _).bind fun _ => (ih _).bind fun _ => .ok _

theorem sweep_withTimeline (timeline : Timeline) (ls : List (String × Lifetime)) :
    ∀ (ts : List Tick) (live : List String),
      ({ m with timeline } : Tracker).sweep ls live ts = m.sweep ls live ts := by
  intro ts
  induction ts with
  | nil => exact fun _ => rfl
  | cons t ts ih =>
      intro live
      rw [sweep, sweep, ih]
      rfl

/-- The timeline depends on the traffic alone. -/
theorem timelineOf_withTimeline (timeline : Timeline) :
    ({ m with timeline } : Tracker).timelineOf = m.timelineOf := by
  rw [timelineOf, timelineOf, sweep_withTimeline]
  rfl

/-- The samples are taken at the given ticks. -/
theorem ticks_of_sweep {ls : List (String × Lifetime)} : ∀ {ts : List Tick} {live : List String}
    {samples : List Sample}, m.sweep ls live ts = .ok samples → samples.map Sample.tick = ts := by
  intro ts
  induction ts with
  | nil =>
      intro live samples h
      cases h
      rfl
  | cons t ts ih =>
      intro live samples h
      rw [sweep] at h
      cases hbytes : m.bytesOf (advance ls live t) with
      | error f =>
          simp only [hbytes] at h
          cases h
      | ok bytes =>
          cases hrest : m.sweep ls (advance ls live t) ts with
          | error f =>
              simp only [hbytes, hrest] at h
              cases h
          | ok rest =>
              simp only [hbytes, hrest] at h
              cases h
              simp [ih hrest]

/-- The samples of a timeline are in the order of their ticks. -/
theorem pairwise_of_timelineOf {timeline : Timeline} (h : m.timelineOf = .ok timeline) :
    timeline.samples.Pairwise fun a b => a.tick < b.tick := by
  rw [timelineOf] at h
  cases hsweep : m.sweep m.lifetimes [] (changes m.lifetimes) with
  | error f =>
      rw [hsweep] at h
      cases h
  | ok samples =>
      rw [hsweep] at h
      cases h
      have hticks : (samples.map Sample.tick).Pairwise (· < ·) :=
        ticks_of_sweep hsweep ▸ ascending_pairwise _
      exact List.pairwise_map.1 hticks

theorem bounded_timelineOf : Bounded m.timelineOf :=
  (bounded_sweep _ _ _).bind fun _ => .ok _

end Tracker

namespace Timeline

/-- Every sample with the next one, until whose tick its bytes are in use. -/
def windows (samples : List Sample) : List (Sample × Sample) := samples.zip samples.tail

/-- The mean is taken of the bytes of all windows, each as often as the window is long. -/
theorem weighted_eq : ∀ {samples : List Sample} (acc : Float),
    (samples.Pairwise fun a b => a.tick < b.tick) → weighted acc samples =
      .ok ((windows samples).foldl (fun sum w =>
        sum + Binary64.ofCounter w.1.bytes * Binary64.ofCounter (w.2.tick - w.1.tick)) acc)
  | [], acc, _ => rfl
  | [_], acc, _ => rfl
  | a :: b :: rest, acc, h => by
      obtain ⟨ha, hrest⟩ := List.pairwise_cons.1 h
      rw [weighted, Counter.sub_of_le (Nat.le_of_lt (ha b List.mem_cons_self))]
      exact weighted_eq _ hrest

/-- **The mean is the weighted sum divided by the time between the first and the last sample**, if there is
time between them. -/
theorem average_eq {t : Timeline} {first last : Sample} (h : t.samples.Pairwise fun a b => a.tick < b.tick)
    (hfirst : t.samples.head? = some first) (hlast : t.samples.getLast? = some last) :
    t.average = if last.tick = first.tick then .ok (Binary64.ofCounter last.bytes)
      else (weighted 0 t.samples).map (· / Binary64.ofCounter (last.tick - first.tick)) := by
  obtain ⟨rest, hsamples⟩ := List.head?_eq_some_iff.1 hfirst
  rw [hsamples] at h hlast
  have hle : first.tick ≤ last.tick := by
    rcases List.mem_cons.1 (List.mem_of_getLast? hlast) with rfl | hmem
    · exact Nat.le_refl _
    · exact Nat.le_of_lt ((List.pairwise_cons.1 h).1 last hmem)
  have hD : rest.getLastD first = last := by
    rw [List.getLast?_cons] at hlast
    rw [List.getLastD_eq_getLast?, Option.some.inj hlast]
  have hspan : last.tick - first.tick = 0 ↔ last.tick = first.tick :=
    Nat.sub_eq_zero_iff_le.trans ⟨fun hge => Nat.le_antisymm hge hle, Nat.le_of_eq⟩
  rw [average, hsamples]
  dsimp only
  rw [hD, Counter.sub_of_le hle]
  show (if last.tick - first.tick = 0 then _ else _) = _
  simp only [hspan]
  cases weighted 0 (first :: rest) <;> rfl

theorem average_of_eq_nil {t : Timeline} (h : t.samples = []) : t.average = .ok 0 := by
  rw [average, h]

/-- Samples in the order of their ticks have a mean. -/
theorem exists_average {t : Timeline} (h : t.samples.Pairwise fun a b => a.tick < b.tick) :
    ∃ mean, t.average = .ok mean := by
  cases hfirst : t.samples.head? with
  | none => exact ⟨0, average_of_eq_nil (List.head?_eq_none_iff.1 hfirst)⟩
  | some first =>
      obtain ⟨rest, hsamples⟩ := List.head?_eq_some_iff.1 hfirst
      have hlast : t.samples.getLast? = some (rest.getLast?.getD first) := by
        rw [hsamples, List.getLast?_cons]
      rw [average_eq h hfirst hlast, weighted_eq 0 h]
      split
      · exact ⟨_, rfl⟩
      · exact ⟨_, rfl⟩

end Timeline

/-- Building the timeline changes nothing else, and the report is about that timeline. -/
theorem Statistics.exists_timeline_of_buildTimeline {m m' : Tracker} {memory : MemoryReport}
    (h : Statistics.buildTimeline m = .ok (m', memory)) : ∃ timeline, m.timelineOf = .ok timeline ∧
      m' = { m with timeline } ∧ memory.timeline = timeline := by
  rw [buildTimeline, Tracker.buildTimeline] at h
  cases htimeline : m.timelineOf with
  | error f =>
      rw [htimeline] at h
      cases h
  | ok timeline =>
      rw [htimeline] at h
      replace h : (MemoryReport.ofTimeline timeline >>= fun memory =>
        pure ({ m with timeline }, memory)) = Except.ok (m', memory) := h
      rw [MemoryReport.ofTimeline] at h
      cases hmean : timeline.average with
      | error f =>
          rw [hmean] at h
          cases h
      | ok mean =>
          rw [hmean] at h
          cases h
          exact ⟨timeline, rfl, rfl, rfl⟩

theorem Statistics.exists_timeline_of_mapM {memory : Option Tracker}
    {built : Option (Tracker × MemoryReport)} (h : memory.mapM buildTimeline = .ok built) :
    ∃ timeline, built.map Prod.fst = memory.map fun m => { m with timeline } := by
  cases memory with
  | none =>
      cases h
      exact ⟨{}, rfl⟩
  | some m =>
      rw [Option.mapM_some] at h
      cases hone : buildTimeline m with
      | error f =>
          rw [hone] at h
          cases h
      | ok one =>
          rw [hone] at h
          cases h
          obtain ⟨timeline, -, heq, -⟩ := exists_timeline_of_buildTimeline hone
          exact ⟨timeline, congrArg some heq⟩

/-- **Building the timeline faults only if a counter leaves its range.** -/
theorem Statistics.bounded_buildTimeline (m : Tracker) : Bounded (Statistics.buildTimeline m) := by
  refine (Tracker.bounded_timelineOf.bind fun _ => .ok _).bind_ok fun m' h => ?_
  cases htimeline : m.timelineOf with
  | error f =>
      rw [htimeline] at h
      cases h
  | ok timeline =>
      rw [htimeline] at h
      cases h
      obtain ⟨mean, hmean⟩ := Timeline.exists_average (Tracker.pairwise_of_timelineOf htimeline)
      simp only [MemoryReport.ofTimeline, hmean]
      exact Bounded.ok _

end TraceReplay
