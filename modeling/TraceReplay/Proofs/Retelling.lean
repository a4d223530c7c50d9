/-
**The trace lines tell what the records say.**

A run with tracing on tells its story twice: in the records of its nodes, and in its trace lines.  The two
are written at different places.  A node that is skipped gets its line before the record that begins and
ends with it, one that is issued gets a line before its record is opened and another one before it is
closed, and closing it leads to a drain that writes the lines of other nodes.  They tell the same story
nevertheless: at any moment between two moves the lines about a node are those that its record amounts to,
the ticks of all lines ascend, and the line with which a node begins stands after the lines with which its
parents end.

Main definitions:

* `linesOf` — the lines about a node;
* `Record.lines` — the lines that a record amounts to;
* `Setup.Concludes` — the line with which a node ends;
* `Setup.Retells` — lines tell what the records say.

Main results:

* `Setup.Retells.offer`, `Setup.Retells.finish` — issuing a node, or skipping it, and ending one keep it so;
* `Setup.Retold.call` — so does a whole call;
* `Replay.lines_retell_records` — **the statistics of a run can be read off its trace lines**.
-/

import TraceReplay.Proofs.Silence
import TraceReplay.Proofs.WallTime

set_option relaxedAutoImplicit false
set_option autoImplicit false

namespace TraceReplay

open TraceReplay.Action

/-! ### Lines and records -/

/-- Those of some lines that are about a node. -/
def linesOf (id : NodeId) (lines : List Entry) : List Entry :=
  lines.filter fun e => e.lineNode? = some id

section

variable {id : NodeId} {lines : List Entry} {line : Entry}

theorem linesOf_concat_self (h : line.lineNode? = some id) :
    linesOf id (lines ++ [line]) = linesOf id lines ++ [line] := by
  simp [linesOf, h]

theorem linesOf_concat_of_ne {id' : NodeId} (node : line.lineNode? = some id') (h : id ≠ id') :
    linesOf id (lines ++ [line]) = linesOf id lines := by
  simp [linesOf, node, h.symm]

end

/-- The lines that the record of a node amounts to: it is issued, and comes back when it ends, unless it
was skipped. -/
def Record.lines (sysId : Nat) (label : NodeLabel) (r : Record) : List Entry :=
  .issue sysId r.start label ::
    if r.operatorType = .invalid then []
    else (r.finish.map fun finish => .callback sysId finish label).toList

namespace Setup

/-- The line with which a node ends: its completion comes back, or it is skipped when it is issued. -/
inductive Concludes (s : Setup) (n : Node) : Entry → Prop
  | callback (tick : Tick) (kept : ¬s.workload.Skips n) :
      Concludes s n (.callback s.config.sysId tick n.label)
  | skip (tick : Tick) (skips : s.workload.Skips n) : Concludes s n (.issue s.config.sysId tick n.label)

/-- The parents of a node have ended, as some lines tell it. -/
def Awaited (s : Setup) (lines : List Entry) (n : Node) : Prop :=
  ∀ id ∈ n.parents, ∃ p ∈ s.trace, p.id = id ∧ ∃ line ∈ lines, s.Concludes p line

/-- **Lines tell what records say**, at a tick that has been reached. -/
structure Retells (s : Setup) (records : SortedMap NodeId Record) (now : Tick) (lines : List Entry) :
    Prop where
  /-- There is no line about a node without a record, -/
  unheard : ∀ id, records.find? id = none → linesOf id lines = []
  /-- and the lines about the others are those that their records amount to. -/
  told : ∀ n ∈ s.trace, ∀ r, records.find? n.id = some r →
    linesOf n.id lines = r.lines s.config.sysId n.label
  /-- A node that is skipped ends when it begins. -/
  instant : ∀ id r, records.find? id = some r → r.operatorType = .invalid → r.finish = some r.start
  ascending : (lines.filterMap Entry.lineTick?).Pairwise (· ≤ ·)
  past : ∀ tick ∈ lines.filterMap Entry.lineTick?, tick ≤ now
  /-- Nodes are issued after their parents have ended. -/
  ordered : ∀ n ∈ s.trace, ∀ before tick, before ++ [.issue s.config.sysId tick n.label] <+: lines →
    s.Awaited before n

namespace Retells

variable {s : Setup} {records : SortedMap NodeId Record} {now : Tick} {lines : List Entry} {n : Node}

/-- Before anything is done there is nothing to tell. -/
theorem initial (s : Setup) (now : Tick) : s.Retells ∅ now [] where
  unheard _ _ := rfl
  told _ _ _ hr := by cases hr
  instant _ _ hr := by cases hr
  ascending := .nil
  past _ h := absurd h List.not_mem_nil
  ordered _ _ before tick h := absurd (List.prefix_nil.1 h) (by simp)

theorem later (h : s.Retells records now lines) {now' : Tick} (hle : now ≤ now') :
    s.Retells records now' lines :=
  { h with past := fun tick htick => Nat.le_trans (h.past tick htick) hle }

/-- **A line is added, as the record of its node changes.**  If the line is about issuing that node then
its parents have ended. -/
theorem tell (h : s.Retells records now lines) (hn : n ∈ s.trace) {r : Record} {line : Entry}
    (node : line.lineNode? = some n.id) (tick : line.lineTick? = some now)
    (told : linesOf n.id lines ++ [line] = r.lines s.config.sysId n.label)
    (instant : r.operatorType = .invalid → r.finish = some r.start)
    (ordered : (∃ tick, line = .issue s.config.sysId tick n.label) → s.Awaited lines n) :
    s.Retells (records.insert n.id r) now (lines ++ [line]) where
  unheard id hnone := by
    rw [SortedMap.find?_insert] at hnone
    split at hnone
    next => cases hnone
    next hid =>
      rw [linesOf_concat_of_ne node hid]
      exact h.unheard id hnone
  told n' hn' r' hr' := by
    by_cases hid : n'.id = n.id
    · cases s.built.eq_of_id_eq hn hn' hid
      rw [SortedMap.find?_insert_self] at hr'
      cases hr'
      rw [linesOf_concat_self node, told]
    · rw [SortedMap.find?_insert_of_ne _ _ hid] at hr'
      rw [linesOf_concat_of_ne node hid]
      exact h.told n' hn' r' hr'
  instant id r' hr' := by
    rcases SortedMap.eq_or_find?_of_insert hr' with ⟨-, rfl⟩ | hr'
    · exact instant
    · exact h.instant id r' hr'
  ascending := by
    rw [List.filterMap_append, List.pairwise_append]
    refine ⟨h.ascending, by simp [tick], fun a ha b hb => ?_⟩
    rw [List.filterMap_cons_some tick] at hb
    cases List.mem_singleton.1 hb
    exact h.past a ha
  past a ha := by
    rw [List.filterMap_append, List.mem_append, List.filterMap_cons_some tick] at ha
    rcases ha with ha | ha
    · exact h.past a ha
    · exact Nat.le_of_eq (List.mem_singleton.1 ha)
  ordered n' hn' before a hprefix := by
    rcases List.prefix_concat_iff.1 hprefix with heq | hprefix
    · -- the new line is the one in question
      obtain ⟨rfl, hline⟩ := List.append_inj' heq rfl
      cases hline
      have hid : n'.id = n.id := Option.some.inj node
      cases s.built.eq_of_id_eq hn hn' hid
      exact ordered ⟨a, rfl⟩
    · exact h.ordered n' hn' before a hprefix

/-- A node is issued, or skipped at once. -/
theorem issue (h : s.Retells records now lines) (hn : n ∈ s.trace)
    (hnone : records.find? n.id = none) {r : Record} (hstart : r.start = now)
    (hr : r.operatorType = .invalid ∧ r.finish = some r.start ∨
      r.operatorType ≠ .invalid ∧ r.finish = none) (awaited : s.Awaited lines n) :
    s.Retells (records.insert n.id r) now (lines ++ [.issue s.config.sysId now n.label]) := by
  refine h.tell hn rfl rfl ?_ (fun hinvalid => ?_) fun _ => awaited
  · rw [h.unheard n.id hnone, Record.lines, hstart]
    rcases hr with ⟨hinvalid, -⟩ | ⟨-, hopen⟩
    · simp [hinvalid]
    · simp [hopen]
  · exact hr.elim And.right fun hvalid => absurd hinvalid hvalid.1

/-- The completion of a node comes back. -/
theorem callback (h : s.Retells records now lines) (hn : n ∈ s.trace) {r : Record}
    (hr : records.find? n.id = some r) (hvalid : r.operatorType ≠ .invalid) (hopen : r.finish = none) :
    s.Retells (records.insert n.id { r with finish := some now }) now
      (lines ++ [.callback s.config.sysId now n.label]) := by
  refine h.tell hn rfl rfl ?_ (fun hinvalid => absurd hinvalid hvalid) fun hissue => ?_
  · rw [h.told n hn r hr]
    simp [Record.lines, hvalid, hopen]
  · obtain ⟨tick, ⟨⟩⟩ := hissue

/-! ### Moves -/

section

variable {κ : Type} {m m' : Moment κ}

/-- The line with which a node that has ended did so is there. -/
theorem concluded (hc : Coherent s m) (h : s.Retells m.workload.statistics.records now lines)
    {id : NodeId} (hended : Record.ended m.workload.statistics.records id = true) :
    ∃ p ∈ s.trace, p.id = id ∧ ∃ line ∈ lines, s.Concludes p line := by
  obtain ⟨r, finish, hr, hfinish⟩ := Record.ended_iff.1 hended
  obtain ⟨⟨p, hp, -⟩, -⟩ := hc.lifecycle.started id r hr
  obtain ⟨hmem, rfl⟩ := (s.built.lookup_iff id p).1 hp
  have hskips := hc.operatorType_eq_invalid_iff hr hp
  have hline (line : Entry) (hline : line ∈ r.lines s.config.sysId p.label) : line ∈ lines := by
    rw [← h.told p hmem r hr] at hline
    exact (List.mem_filter.1 hline).1
  refine ⟨p, hmem, rfl, ?_⟩
  by_cases hinvalid : r.operatorType = .invalid
  · exact ⟨_, hline _ List.mem_cons_self, .skip r.start (hskips.1 hinvalid)⟩
  · refine ⟨_, hline _ ?_, .callback finish (mt hskips.2 hinvalid)⟩
    simp [Record.lines, hinvalid, hfinish]

variable [Kernel κ]

/-- **A node that is issued or skipped gets a line**, at the present tick, which is the start of its
record. -/
theorem offer (steady : Kernel.Steady κ) (hc : Coherent s m)
    (h : s.Retells m.workload.statistics.records (Kernel.now m.kernel) lines) {id : NodeId}
    {rest : List NodeId} (front : m.Front id n rest) (offer : Offer m m') (haside : m'.aside = m.aside) :
    s.Retells m'.workload.statistics.records (Kernel.now m'.kernel)
      (lines ++ [.issue s.config.sysId (Kernel.now m.kernel) n.label]) := by
  obtain ⟨hn, rfl, hnone, hunblocked⟩ := hc.front front
  obtain ⟨hmem, -⟩ := (s.built.lookup_iff _ n).1 hn
  have awaited : s.Awaited lines n := fun p hp =>
    h.concluded hc (hc.parents_ended hunblocked n hn p hp)
  cases offer with
  | block front' full => simp at haside
  | skip front' room skips freed =>
      obtain ⟨hid, rfl, rfl⟩ := front.unique front'
      exact h.issue hmem hnone rfl (.inl ⟨rfl, rfl⟩) awaited
  | start front' room planned starts takes =>
      obtain ⟨rfl, rfl, rfl⟩ := front.unique front'
      have hvalid := Coherent.ofClass_ne planned (by rintro rfl; cases starts)
      exact (h.issue hmem hnone rfl (.inr ⟨hvalid, rfl⟩) awaited).later (steady.takes takes)
  | gather front' room planned gathers gives registered =>
      obtain ⟨rfl, rfl, rfl⟩ := front.unique front'
      have hvalid := Coherent.ofClass_ne planned (by rintro rfl; cases gathers)
      exact (h.issue hmem hnone rfl (.inr ⟨hvalid, rfl⟩) awaited).later (steady.gives gives)

/-- **So does a node that ends**, at the tick that its record is closed with. -/
theorem finish (hc : Coherent s m)
    (h : s.Retells m.workload.statistics.records (Kernel.now m.kernel) lines) {event : Event}
    {m₁ m₂ : Moment κ} {id : NodeId} {rest : List NodeId} (found : m.workload.graph.lookup id = some n)
    (closes : Closes event m m₁) (frees : Frees m₁ m₂) (told : m₂.lingering = id :: rest) :
    s.Retells m₂.workload.statistics.records (Kernel.now m₂.kernel)
      (lines ++ [.callback s.config.sysId (Kernel.now m.kernel) n.label]) := by
  obtain ⟨arrives, found', closed⟩ := closes
  obtain ⟨unfreed, holds, freed⟩ := frees
  -- the node that ended is the one whose children were told
  cases unfreed
  cases told
  cases found.symm.trans found'
  obtain ⟨hn, rfl, hrunning, -⟩ := hc.arriving arrives found
  obtain ⟨r, memory, hr, -, -, rfl⟩ := closed
  have hopen := Record.finish_of_running hrunning hr
  exact h.callback ((s.built.lookup_iff _ n).1 hn).1 hr (hc.custody.busy n.id r hr hopen) hopen

end

end Retells

/-! ### Calls -/

section

open Engine

variable {κ : Type} [Kernel κ] {s : Setup} {m m' : Moment κ} {j₀ j : Array Entry}

/-- The trace lines that have been added to a journal tell what the records say. -/
def Retold (s : Setup) (j₀ : Array Entry) (t : Logged (Engine κ)) : Prop :=
  ∃ lines, Journal.Grows j₀ lines t.journal ∧
    s.Retells t.state.workload.statistics.records (Kernel.now t.state.kernel) lines

namespace Retold

/-- What is no trace line is not told. -/
theorem note (h : s.Retold j₀ ⟨m.toEngine, j⟩) {e : Entry} (he : e.isTraceLine = false) :
    s.Retold j₀ ⟨m.toEngine, j.push e⟩ := by
  obtain ⟨lines, grows, retells⟩ := h
  exact ⟨lines, grows.push_other he, retells⟩

variable (enabled : s.config.traceEnabled = true)

include enabled

/-- A node that an event brings back is retired. -/
theorem retire (hc : Coherent s m) (h : s.Retold j₀ ⟨m.toEngine, j⟩) {event : Event} {id : NodeId}
    {c : NodeClass} {w : Workload} (arrives : Arrives m.workload event id c w) :
    Ends (retire id c) ⟨{ m.toEngine with workload := w }, j⟩
      (fun _ t => ∃ m₁ m₂, Closes event m m₁ ∧ Frees m₁ m₂ ∧ m₂.toEngine = t.state ∧
        s.Retold j₀ t)
      fun _ _ => True := by
  obtain ⟨lines, grows, retells⟩ := h
  obtain ⟨hgraph, -, hconfig⟩ := arrives.keeps
  obtain ⟨hrunning, -⟩ := hc.custody.of_arrives arrives
  obtain ⟨n, found, -⟩ := hc.present_of_running hrunning
  refine ((ends_retire arrives).and (ends_retire_line (e := { m.toEngine with workload := w })
    (by rw [hconfig, hc.config, enabled]) (hgraph ▸ found) grows c)).imp ?_ fun _ _ _ => trivial
  rintro _ ⟨_, j'⟩ ⟨⟨m₁, m₂, rest, closes, frees, told, rfl⟩, grows'⟩
  refine ⟨m₁, m₂, closes, frees, rfl, _, grows', ?_⟩
  rw [hconfig, hc.config]
  exact retells.finish hc found closes frees told

variable (steady : Kernel.Steady κ) (silent : Kernel.Silent κ)

include steady silent

/-- The node at the front is issued or skipped. -/
theorem issue (hc : Coherent s m) (h : s.Retold j₀ ⟨m.toEngine, j⟩) {id : NodeId} {n : Node}
    {rest : List NodeId} (front : m.Front id n rest)
    (room : m.workload.pool.hasRoom n.nodeClass = true) :
    Ends (issue id) ⟨{ m.toEngine with workload := m.workload.withReady rest }, j⟩
      (fun _ t => ∃ m', Offer m m' ∧ m'.aside = m.aside ∧ m'.toEngine = t.state ∧ s.Retold j₀ t)
      fun _ _ => True := by
  obtain ⟨lines, grows, retells⟩ := h
  have traced : (m.workload.withReady rest).config.traceEnabled = true := by
    rw [← enabled, ← hc.config]
    rfl
  refine ((ends_issue front room).and (ends_issue_line traced front.found grows silent)).imp ?_
    fun _ _ _ => trivial
  rintro _ ⟨_, j'⟩ ⟨⟨m', offer, haside, rfl⟩, grows'⟩
  refine ⟨m', offer, haside, rfl, _, grows', ?_⟩
  have hsysId : (m.workload.withReady rest).config.sysId = s.config.sysId := by
    rw [← hc.config]
    rfl
  rw [hsysId]
  exact retells.offer steady hc front offer haside

/-- A drain with enough fuel. -/
theorem drainFrom {fuel : Nat} : ∀ {m : Moment κ} {j : Array Entry}, m.workload.graph.work < fuel →
    Coherent s m → s.Retold j₀ ⟨m.toEngine, j⟩ →
      Ends (drainFrom fuel m.aside : Act κ Unit) ⟨m.toEngine, j⟩ (fun _ t => s.Retold j₀ t)
        fun _ _ => True := by
  induction fuel with
  | zero => exact fun hfuel => absurd hfuel (Nat.not_lt_zero _)
  | succ fuel ih =>
      intro m j hfuel hc h
      simp only [Engine.drainFrom, ends_bind, ends_takeReady]
      cases hready : m.workload.graph.ready with
      | nil =>
          -- handing nodes back to the queue is not told
          exact h
      | cons id rest =>
          simp only [ends_lookup]
          cases hfound : m.workload.graph.lookup id with
          | none => exact absurd hfound (hc.lookup_front hready)
          | some n =>
              have front : m.Front id n rest := ⟨hready, hfound⟩
              have found : (m.workload.withReady rest).graph.lookup id = some n := hfound
              simp only [found, onPool, SlotPool.check, ends_on, ends_stopAs, ends_bind, ends_get,
                ends_note, ends_pure, ends_ite]
              -- every offer uses up work, so the fuel outlasts the queue
              refine ⟨fun room => ?_, fun blocked => ?_⟩
              · refine ((h.note rfl).issue enabled steady silent hc front room).imp ?_
                  fun _ _ _ => trivial
                rintro _ ⟨_, j'⟩ ⟨m', offer, haside, rfl, h'⟩
                have hwork := work_offer offer
                rw [← haside]
                exact ih (by omega) (hc.offer offer) h'
              · have offer := Offer.block front (Bool.eq_false_iff.2 blocked)
                have hwork := work_offer offer
                exact ih (by omega) (hc.offer offer) (h.note rfl)

/-- A drain in which no node has been put aside yet. -/
theorem drain (hc : Coherent s m) (h : s.Retold j₀ ⟨m.toEngine, j⟩) (haside : m.aside = []) :
    Ends (drain : Act κ Unit) ⟨m.toEngine, j⟩ (fun _ t => s.Retold j₀ t) fun _ _ => True := by
  simp only [Engine.drain, workloadOf, ends_bind, ends_get, ends_pure]
  have hdrain := h.drainFrom enabled steady silent (Nat.lt_succ_self m.workload.graph.work) hc
  rwa [haside] at hdrain

/-- **What is done with an event**, while no node is put aside. -/
theorem turn (hc : Coherent s m) (h : s.Retold j₀ ⟨m.toEngine, j⟩) (haside : m.aside = [])
    (event : Event) :
    Ends (turn event) ⟨m.toEngine, j⟩ (fun _ t => s.Retold j₀ t) fun _ _ => True := by
  by_cases hwake : event = .wake
  · subst hwake
    exact h.drain enabled steady silent hc haside
  · obtain ⟨lines, grows, retells⟩ := h
    rw [turn_eq hwake, ends_bind]
    refine ((ends_arrive hwake).and ((silent_arrive event).ends grows)).imp ?_ fun _ _ _ => trivial
    rintro (_ | ⟨id, c⟩) ⟨_, j'⟩ ⟨harrive, grows'⟩
    · obtain ⟨m', drops, -⟩ := harrive
      exact absurd drops hc.not_drops
    · obtain ⟨w, arrives, rfl⟩ := harrive
      simp only [finishNode_eq, ends_bind]
      have h' : s.Retold j₀ ⟨m.toEngine, j'⟩ := ⟨lines, grows', retells⟩
      refine (h'.retire enabled hc arrives).imp ?_ fun _ _ _ => trivial
      rintro _ ⟨_, j₁⟩ ⟨m₁, m₂, closes, frees, rfl, h₂⟩
      exact (h₂.drain enabled steady silent ((hc.close closes).free frees)
        ((closes.aside_eq frees).trans haside)).imp (fun _ _ h => h) fun _ _ _ => trivial

/-- **A whole call**, which may end the run. -/
theorem call (hc : Coherent s m) (h : s.Retold j₀ ⟨m.toEngine, j⟩) (haside : m.aside = [])
    (event : Event) (goesOn : m.workload.isFinished = false) :
    Ends (call event) ⟨m.toEngine, j⟩ (fun _ t => s.Retold j₀ t) fun _ _ => True := by
  simp only [call_eq, workloadOf, ends_bind, ends_get, ends_pure, goesOn, Bool.false_eq_true,
    ↓reduceIte]
  refine ((h.turn enabled steady silent hc haside event).and ends_turn).imp ?_ fun _ _ _ => trivial
  rintro _ ⟨_, j'⟩ ⟨⟨lines, grows, retells⟩, m₁, turn, rfl⟩
  refine ((ends_checkTermination turn).and (silent_checkTermination.ends grows)).imp ?_
    fun _ _ _ => trivial
  rintro _ ⟨_, j₁⟩ ⟨⟨m₂, settles, rfl⟩, grows'⟩
  refine ⟨lines, grows', ?_⟩
  cases settles <;> exact retells

end Retold

end

end Setup

/-! ### Whole runs -/

/-- **A whole run with tracing on is retold by its trace lines.** -/
theorem Replay.ends_run_retold {s : Setup} {c : AnalyticalConfig} (j : Array Entry)
    (enabled : s.config.traceEnabled = true) :
    Ends run ⟨s.engine { config := c }, j⟩ (fun _ t => s.Retold j t) fun _ _ => True := by
  have steady := Analytical.conforms.toSteady
  refine ends_run_of_next (I := s.Retold j) ?_ (fun _ => trivial) ?_
  · intro m event k j' rests goesOn next retold
    obtain ⟨calls, quiet, -, hrest, hprepared⟩ := rests.atRest
    obtain ⟨-, hlater, -⟩ := hprepared.next next
    obtain ⟨lines, grows, retells⟩ := retold
    have h : s.Retold j ⟨({ m with kernel := k } : Moment Analytical).toEngine, j'⟩ :=
      ⟨lines, grows, retells.later hlater⟩
    exact h.call enabled steady Analytical.silent (hrest.later hlater).coherent (hrest.tidy quiet).1
      event goesOn
  · have hinitial := AtRest.initial s ({ config := c } : Analytical)
    have h : s.Retold j ⟨(s.moment ({ config := c } : Analytical)).toEngine, j⟩ := by
      refine ⟨[], .refl j, ?_⟩
      obtain ⟨-, group, hw⟩ := s.created_iff
      simp only [Setup.moment, Setup.engine, hw]
      exact .initial s _
    exact h.call enabled steady Analytical.silent hinitial.coherent rfl .wake (s.isFinished_moment _)

/-- **The statistics of a run can be read off its trace lines.**  In a whole run with tracing on that
returns there are, for every node of the trace, a line that it is issued, with the start of its record,
and after it, unless the node is skipped, a line that it came back, with the end of its record; there are
no other trace lines, and all of them are of the debug level.  The ticks of the lines ascend, and a node is
issued after each of its parents came back, or was skipped. -/
theorem Replay.lines_retell_records {s : Setup} {c : AnalyticalConfig} {j : Array Entry} {tick : Tick}
    {t : Logged (Engine Analytical)} (enabled : s.config.traceEnabled = true)
    (hrun : run ⟨s.engine { config := c }, j⟩ = .ok tick t) :
    ∃ lines, Journal.Grows j lines t.journal ∧
      (∀ n ∈ s.trace, ∃ r finish, t.state.workload.statistics.records.find? n.id = some r ∧
        r.finish = some finish ∧ (r.operatorType = .invalid ↔ s.workload.Skips n) ∧
        (s.workload.Skips n → finish = r.start ∧
          linesOf n.id lines = [.issue s.config.sysId r.start n.label]) ∧
        (¬s.workload.Skips n → linesOf n.id lines =
          [.issue s.config.sysId r.start n.label, .callback s.config.sysId finish n.label])) ∧
      (∀ line ∈ lines, line.level = .debug ∧ ∃ n ∈ s.trace, line.lineNode? = some n.id) ∧
      (lines.filterMap Entry.lineTick?).Pairwise (· ≤ ·) ∧
      ∀ n ∈ s.trace, ∀ before issued, before ++ [.issue s.config.sysId issued n.label] <+: lines →
        s.Awaited before n := by
  obtain ⟨lines, grows, retells⟩ := (ends_run_retold j enabled).of_ok hrun
  obtain ⟨hfinish, -, m, rests, ht, -⟩ := ends_run_rests.of_ok hrun
  rw [← ht] at hfinish retells ⊢
  have hfinished : m.workload.isFinished = true := by rw [Workload.isFinished, hfinish]; rfl
  refine ⟨lines, grows, fun n hn => ?_, fun line hline => ?_, retells.ascending, retells.ordered⟩
  · obtain ⟨r, finish, hr, hend, -⟩ := rests.ended_of_mem hfinished hn
    have hskips := rests.coherent.1.operatorType_eq_invalid_iff hr
      ((s.built.lookup_iff n.id n).2 ⟨hn, rfl⟩)
    refine ⟨r, finish, hr, hend, hskips, fun skips => ⟨?_, ?_⟩, fun kept => ?_⟩
    · exact Option.some.inj (hend.symm.trans (retells.instant n.id r hr (hskips.2 skips)))
    · rw [retells.told n hn r hr, Record.lines, if_pos (hskips.2 skips)]
    · rw [retells.told n hn r hr, Record.lines, if_neg (mt hskips.1 kept), hend]
      rfl
  · have hisLine := grows.isTraceLine_of_mem hline
    refine ⟨Entry.level_of_isTraceLine hisLine, ?_⟩
    obtain ⟨id, hid⟩ := Option.isSome_iff_exists.1 hisLine
    -- a node that lines are about has a record
    cases hr : m.workload.statistics.records.find? id with
    | none =>
        have hmem : line ∈ linesOf id lines := List.mem_filter.2 ⟨hline, decide_eq_true hid⟩
        rw [retells.unheard id hr] at hmem
        cases hmem
    | some r =>
        obtain ⟨n, hn, rfl⟩ := rests.mem_trace_of_record hr
        exact ⟨n, hn, hid⟩

/-- A computation on the CPU and one on the GPU, a node of the invalid kind between them, and tracing on. -/
@[irreducible] def Setup.interlude : Setup :=
  .ofTrace { traceEnabled := true } [
    { id := 1, name := "first", kind := .compute, dataDeps := [], ctrlDeps := []
      attributes := { runtime := some 1 } },
    { id := 2, name := "between", kind := .invalid, dataDeps := [1], ctrlDeps := []
      attributes := {} },
    { id := 3, name := "second", kind := .compute, dataDeps := [2], ctrlDeps := []
      attributes := { runtime := some 2, isCpuOp := some false } }]

/-- The node between them is issued when the first computation comes back, and it never comes back; the
second one is issued at the same tick. -/
theorem Replay.lines_retell_records_interlude : Setup.interlude.config.traceEnabled = true ∧
    ∃ t lines, run ⟨Setup.interlude.engine { config := {} }, #[]⟩ = .ok 3000 t ∧
      Journal.Grows #[] lines t.journal ∧ (lines.filterMap Entry.lineTick?).Pairwise (· ≤ ·) ∧
      ∀ n ∈ Setup.interlude.trace,
        (n.id = 2 → linesOf 2 lines = [.issue Setup.interlude.config.sysId 1000 n.label]) ∧
        (n.id = 3 → linesOf 3 lines = [.issue Setup.interlude.config.sysId 1000 n.label,
          .callback Setup.interlude.config.sysId 3000 n.label]) := by
  have enabled : Setup.interlude.config.traceEnabled = true := by decide +kernel
  have hruns : Ends run ⟨Setup.interlude.engine { config := {} }, #[]⟩
      (fun tick t => tick = 3000 ∧
        (t.state.workload.statistics.records.find? 2).map
          (fun r => (r.operatorType, r.start)) = some (.invalid, 1000) ∧
        (t.state.workload.statistics.records.find? 3).map
          (fun r => (r.operatorType, r.start, r.finish)) = some (.gpu, 1000, some 3000))
      fun _ _ => False := by decide +kernel
  obtain ⟨_, t, hrun, rfl, hbetween, hsecond⟩ := hruns.exists_ok
  obtain ⟨lines, grows, htold, -, hascending, -⟩ := Replay.lines_retell_records enabled hrun
  refine ⟨enabled, t, lines, hrun, grows, hascending, fun n hn => ?_⟩
  obtain ⟨r, finish, hr, hfinish, hskips, hskipped, hkept⟩ := htold n hn
  refine ⟨fun hid => ?_, fun hid => ?_⟩
  · rw [hid] at hr hskipped
    rw [hr] at hbetween
    obtain ⟨htype, hstart⟩ := Prod.mk.inj (Option.some.inj hbetween)
    rw [(hskipped (hskips.1 htype)).2, hstart]
  · rw [hid] at hr hkept
    rw [hr] at hsecond
    obtain ⟨htype, htimes⟩ := Prod.mk.inj (Option.some.inj hsecond)
    obtain ⟨hstart, hend⟩ := Prod.mk.inj htimes
    cases hfinish.symm.trans hend
    have hvalid : r.operatorType ≠ .invalid := by rw [htype]; decide
    rw [hkept (mt hskips.2 hvalid), hstart]

end TraceReplay
