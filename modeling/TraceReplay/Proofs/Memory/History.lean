/-
**The tables of a tracker are a faithful log.**

A tracker is told when intervals open and close, in any order of the nodes.  Here calls that open and
close intervals are read as the list of the mentions of tensors that they come to, without a look at the
tracker: an interval that closes mentions the inputs of its node and then the outputs.  As long as all
calls return, what the tracker says of a name is what that list says of it, and the next interval that
closes fails exactly if one of its mentions contradicts an earlier one.

Main definitions:

* `Tracker.Call` — opening and closing the interval of a node;
* `Tracker.History` — calls, the intervals that they leave open, and the mentions that they come to;
* `Mention.Contradicts` — some mentions contradict earlier ones, or each other;
* `Tracker.Follows` — a tracker says what its history says.

Main results:

* `Mention.contradicts_iff` — a contradiction is a mention that does not permit a later one;
* `Tracker.Follows.recordEnd` — closing an interval keeps to the history, or finds a contradiction;
* `Tracker.History.ends_calls` — so a tracker follows its history;
* `Tracker.tables_faithful` — **its tables say what was mentioned, and only a contradiction fails**.
-/

import Mathlib.Logic.Function.Basic
import TraceReplay.Proofs.Memory.Log

set_option relaxedAutoImplicit false
set_option autoImplicit false

namespace TraceReplay

open TraceReplay.Action

/-! ### Contradictions -/

namespace Mention

variable {log es : List Mention}

/-- One of some mentions, taken in turn after a log, gives a tensor that was mentioned before another size,
or writes it. -/
def Contradicts (log es : List Mention) : Prop :=
  ∃ before e after, es = before ++ e :: after ∧ ∃ e' ∈ log ++ before,
    e'.tensor.name = e.tensor.name ∧ (e.tensor.size ≠ e'.tensor.size ∨ e.isWrite = true)

/-- The first of some mentions contradicts the log, or the others contradict the log and that one. -/
theorem contradicts_cons {e : Mention} : Contradicts log (e :: es) ↔
    (∃ e' ∈ log, ¬Permits e' e) ∨ Contradicts (log ++ [e]) es := by
  have hnot (e' e : Mention) : ¬Permits e' e ↔ e'.tensor.name = e.tensor.name ∧
      (e.tensor.size ≠ e'.tensor.size ∨ e.isWrite = true) := by
    rw [Permits, Classical.not_imp, Classical.not_and_iff_not_or_not, Bool.not_eq_false, eq_comm]
  simp only [Contradicts, ← hnot]
  constructor
  · rintro ⟨before, e₁, after, hsplit, e', he', hbad⟩
    rcases List.cons_eq_append_iff.1 hsplit with ⟨rfl, hcons⟩ | ⟨before, rfl, rfl⟩
    · cases hcons
      exact .inl ⟨e', by simpa using he', hbad⟩
    · exact .inr ⟨before, e₁, after, rfl, e', by simpa using he', hbad⟩
  · rintro (⟨e', he', hbad⟩ | ⟨before, e₁, after, rfl, e', he', hbad⟩)
    · exact ⟨[], e, es, rfl, e', by simpa using he', hbad⟩
    · exact ⟨e :: before, e₁, after, rfl, e', by simpa using he', hbad⟩

/-- After a log without contradictions, that is a mention which does not permit a later one. -/
theorem contradicts_iff (hlog : log.Pairwise Permits) :
    Contradicts log es ↔ ¬(log ++ es).Pairwise Permits := by
  induction es generalizing log with
  | nil =>
      rw [List.append_nil]
      refine ⟨fun ⟨before, e, after, hsplit, _⟩ => ?_, fun hnot => absurd hlog hnot⟩
      exact absurd hsplit.symm (List.append_ne_nil_of_right_ne_nil _ (List.cons_ne_nil _ _))
  | cons e es ih =>
      rw [contradicts_cons]
      -- unless the first mention contradicts the log, it extends a log without contradictions
      by_cases hbad : ∃ e' ∈ log, ¬Permits e' e
      · refine iff_of_true (.inl hbad) fun hall => ?_
        obtain ⟨e', he', hnot⟩ := hbad
        exact hnot ((List.pairwise_append.1 hall).2.2 e' he' e List.mem_cons_self)
      · have hpermits : ∀ e' ∈ log, Permits e' e := fun e' he' =>
          Classical.byContradiction fun hnot => hbad ⟨e', he', hnot⟩
        have hlog' : (log ++ [e]).Pairwise Permits :=
          List.pairwise_append.2 ⟨hlog, List.pairwise_singleton _ _, by simpa using hpermits⟩
        rw [or_iff_right hbad, ih hlog', List.append_assoc, List.singleton_append]

/-- At most one mention writes a tensor. -/
theorem length_writes_le_one (hlog : log.Pairwise Permits) (name : String) :
    (log.filter fun e => e.isWrite && e.names name).length ≤ 1 := by
  have hnever : (log.filter fun e => e.isWrite && e.names name).Pairwise fun _ _ => False := by
    refine List.Pairwise.imp_of_mem (fun {e e'} he he' hpermits => ?_) (hlog.filter _)
    simp only [List.mem_filter, Bool.and_eq_true, names_iff] at he he'
    obtain ⟨-, hread⟩ := hpermits (he'.2.2.trans he.2.2.symm)
    cases hread.symm.trans he'.2.1
  generalize log.filter (fun e => e.isWrite && e.names name) = writes at hnever
  rcases writes with _ | ⟨e, _ | ⟨e', rest⟩⟩
  · exact Nat.zero_le 1
  · exact Nat.le_refl 1
  · exact ((List.pairwise_cons.1 hnever).1 e' List.mem_cons_self).elim

end Mention

/-! ### Histories -/

namespace Tracker

/-- A call that tells a tracker that an interval opens or closes. -/
inductive Call where
  | start (id : NodeId) (tick : Tick)
  | finish (n : Node) (tick : Tick)

/-- What a call does. -/
def Call.act : Call → Action Stop Tracker Unit
  | start id tick => Action.update fun m => m.recordStart id tick
  | finish n tick => recordEnd n tick

/-- Calls in which a node opens an interval only if it has none open, and closes one only if it has.  They
leave some intervals open, and come to the mentions of the nodes that closed one, in the order in which
these did. -/
inductive History : List Call → (NodeId → Option Tick) → List Mention → Prop
  | nil : History [] (fun _ => none) []
  | start {calls : List Call} {opened : NodeId → Option Tick} {log : List Mention}
      (h : History calls opened log) (id : NodeId) (new : opened id = none) (tick : Tick) :
      History (calls ++ [.start id tick]) (Function.update opened id (some tick)) log
  | finish {calls : List Call} {opened : NodeId → Option Tick} {log : List Mention}
      (h : History calls opened log) (n : Node) {start : Tick} (interval : opened n.id = some start)
      (tick : Tick) :
      History (calls ++ [.finish n tick]) (Function.update opened n.id none)
        (log ++ n.mentions start tick)

/-- A tracker says what its history says: the intervals that are open, and a list of mentions none of which
contradicts an earlier one. -/
structure Follows (m : Tracker) (opened : NodeId → Option Tick) (log : List Mention) : Prop where
  opened : ∀ id, m.opened.find? id = opened id
  logs : m.Logs log
  consistent : log.Pairwise Mention.Permits

section

variable {m : Tracker} {opened : NodeId → Option Tick} {log : List Mention} {n : Node} {start : Tick}
  {name : String} {e : Mention}

/-- An interval closes only if both lists of the node can be read. -/
theorem ends_recordEnd_legible (n : Node) (tick : Tick) (t : Logged Tracker) :
    Ends (recordEnd n tick) t
      (fun _ _ => (∃ ts, n.inputTensors = .ok ts) ∧ ∃ ts, n.outputTensors = .ok ts)
      fun _ _ => True := by
  simp only [recordEnd, ends_bind, ends_get]
  cases t.state.opened.find? n.id with
  | none => trivial
  | some start =>
      cases hinputs : n.inputTensors with
      | error x => trivial
      | ok inputs =>
          cases houtputs : n.outputTensors with
          | error x => trivial
          | ok outputs => exact ends_iff.2 ⟨fun _ _ _ => ⟨⟨_, rfl⟩, _, rfl⟩, fun _ _ _ => trivial⟩

namespace Follows

theorem initial (sysId : Nat) : Follows { sysId } (fun _ => none) [] :=
  ⟨fun _ => rfl, .initial sysId, .nil⟩

/-- An interval opens. -/
theorem recordStart (h : m.Follows opened log) (id : NodeId) (tick : Tick) :
    (m.recordStart id tick).Follows (Function.update opened id (some tick)) log where
  opened := fun id' => by
    rw [Tracker.recordStart, SortedMap.find?_insert, h.opened, Function.update_apply]
  logs := h.logs.congr rfl rfl rfl
  consistent := h.consistent

/-- **An interval closes**, unless the mentions of its node contradict the log. -/
theorem recordEnd (h : m.Follows opened log) (interval : opened n.id = some start)
    (inputs : ∃ ts, n.inputTensors = .ok ts) (outputs : ∃ ts, n.outputTensors = .ok ts) (tick : Tick)
    (j : Array Entry) :
    Ends (Tracker.recordEnd n tick) ⟨m, j⟩
      (fun _ t => ¬Mention.Contradicts log (n.mentions start tick) ∧
        t.state.Follows (Function.update opened n.id none) (log ++ n.mentions start tick))
      fun stop _ => Mention.Contradicts log (n.mentions start tick) ∧ ∃ x, stop = .error x := by
  have hopen : m.opened.find? n.id = some start := (h.opened n.id).trans interval
  rw [Mention.contradicts_iff h.consistent]
  refine ((h.logs.recordEnd h.consistent hopen inputs outputs tick j).and ends_recordEnd).imp ?_ ?_
  · rintro _ t ⟨⟨hlog, hlogs, hopened⟩, -⟩
    refine ⟨not_not_intro hlog, fun id => ?_, hlogs, hlog⟩
    rw [hopened, SortedMap.find?_erase, h.opened, Function.update_apply]
  · rintro stop t ⟨hnot, ⟨hnone, -⟩ | ⟨-, x, hx, -⟩⟩
    · cases hopen.symm.trans hnone
    · exact ⟨hnot, x, hx⟩

/-- All mentions of a name give its size. -/
theorem sizes_of_mem (h : m.Follows opened log) (he : e ∈ log) :
    m.sizes.find? e.tensor.name = some e.tensor.size := by
  obtain ⟨first, hfirst⟩ := Mention.exists_find?_of_mem he
  rw [h.logs.sizes, hfirst, Option.map_some, Mention.size_eq_of_find? h.consistent hfirst e he rfl]

/-- The write of a name stands for a tensor that was there exactly if all its mentions read it. -/
theorem writes_eq_assumed_iff (h : m.Follows opened log) (touched : ∀ e ∈ log, e.activity ≠ .assumed) :
    m.writes.find? name = some .assumed ↔ (∃ e ∈ log, e.tensor.name = name) ∧
      ∀ e ∈ log, e.tensor.name = name → e.isWrite = false := by
  constructor
  · intro hassumed
    constructor
    · rcases h.logs.write_cases hassumed with ⟨e, he, -, hname, -⟩ | ⟨e, he, -, hname, -⟩
      · exact ⟨e, he, hname⟩
      · exact ⟨e, he, hname⟩
    · rintro e he rfl
      refine Bool.eq_false_iff.2 fun hwrite => touched e he ?_
      exact Option.some.inj ((h.logs.writes_of_write h.consistent he hwrite).symm.trans hassumed)
  · rintro ⟨⟨e, he, rfl⟩, hreads⟩
    obtain ⟨w, hw⟩ := h.logs.writes_of_mem he
    rcases h.logs.write_cases hw with ⟨e', he', hwrite, hname, -⟩ | ⟨-, -, -, -, rfl⟩
    · cases (hreads e' he' hname).symm.trans hwrite
    · exact hw

/-- Of a name that is not mentioned nothing is known. -/
theorem unknown (h : m.Follows opened log) (unmentioned : ∀ e ∈ log, e.tensor.name ≠ name) :
    m.sizes.find? name = none ∧ m.writes.find? name = none ∧ m.readsOf name = [] := by
  have hnone : log.find? (Mention.names name) = none :=
    List.find?_eq_none.2 fun e he hname => unmentioned e he (Mention.names_iff.1 hname)
  refine ⟨by rw [h.logs.sizes, hnone]; rfl, by rw [h.logs.writes, hnone]; rfl, ?_⟩
  rw [h.logs.reads, List.map_eq_nil_iff, List.filter_eq_nil_iff]
  intro e he hread
  exact unmentioned e he (Mention.names_iff.1 (Bool.and_eq_true_iff.1 hread).2)

end Follows

/-- What is mentioned was touched by some node. -/
theorem History.activity_ne_assumed {calls : List Call} (h : History calls opened log) :
    ∀ e ∈ log, e.activity ≠ .assumed := by
  induction h with
  | nil => exact fun e he => by cases he
  | start h id new tick ih => exact ih
  | finish h n interval tick ih =>
      intro e he
      rcases List.mem_append.1 he with he | he
      · exact ih e he
      · rw [(Node.mem_mentions.1 he).2]
        rintro ⟨⟩

/-- **A tracker follows its history**, as long as all calls return. -/
theorem History.ends_calls {calls : List Call} (h : History calls opened log) (sysId : Nat)
    (j : Array Entry) :
    Ends (calls.forM Call.act) ⟨{ sysId }, j⟩
      (fun _ t => t.state.Follows opened log ∧ ∀ n tick, .finish n tick ∈ calls →
        (∃ ts, n.inputTensors = .ok ts) ∧ ∃ ts, n.outputTensors = .ok ts)
      fun _ _ => True := by
  induction h with
  | nil => exact ⟨.initial sysId, fun n tick h => by cases h⟩
  | start h id new tick ih =>
      rw [ends_forM_snoc]
      refine ih.imp ?_ fun _ _ h => h
      rintro _ t ⟨follows, legible⟩
      refine ⟨follows.recordStart id tick, fun n tick' hcall => ?_⟩
      exact legible n tick' (by simpa using hcall)
  | finish h n interval tick ih =>
      rw [ends_forM_snoc]
      refine ih.imp ?_ fun _ _ h => h
      rintro _ t ⟨follows, legible⟩
      refine ends_iff.2 ⟨fun _ t' hr => ?_, fun _ _ _ => trivial⟩
      -- the lists of the node can be read, or the call would not have returned
      have hn := (ends_recordEnd_legible n tick t).of_ok hr
      have hnext := (follows.recordEnd interval hn.1 hn.2 tick t.journal).of_ok hr
      refine ⟨hnext.2, fun n' tick' hcall => ?_⟩
      rcases List.mem_append.1 hcall with hcall | hcall
      · exact legible n' tick' hcall
      · cases List.mem_singleton.1 hcall
        exact hn

/-- **The tables of a tracker are a faithful log.**  After calls that have all returned, every mention of a
name gives the size that is recorded.  At most one mention writes it, and is then its write; if it was
only ever read its write stands for a tensor that was there.  Its reads are its mentions as an input, and
of a name that was not mentioned nothing is recorded.  A node that has an interval open and lists that can
be read fails to close it exactly if its mentions contradict what was mentioned before. -/
theorem tables_faithful {calls : List Call} (h : History calls opened log) {sysId : Nat} {j : Array Entry}
    {t : Logged Tracker} (returned : calls.forM Call.act ⟨{ sysId }, j⟩ = .ok () t) :
    (∀ n tick, .finish n tick ∈ calls →
      (∃ ts, n.inputTensors = .ok ts) ∧ ∃ ts, n.outputTensors = .ok ts) ∧
    (∀ e ∈ log, t.state.sizes.find? e.tensor.name = some e.tensor.size) ∧
    (∀ name, (log.filter fun e => e.isWrite && e.names name).length ≤ 1) ∧
    (∀ e ∈ log, e.isWrite = true → t.state.writes.find? e.tensor.name = some e.activity) ∧
    (∀ name, t.state.writes.find? name = some .assumed ↔
      (∃ e ∈ log, e.tensor.name = name) ∧ ∀ e ∈ log, e.tensor.name = name → e.isWrite = false) ∧
    (∀ name, t.state.readsOf name =
      (log.filter fun e => !e.isWrite && e.names name).map Mention.activity) ∧
    (∀ name, (∀ e ∈ log, e.tensor.name ≠ name) →
      t.state.sizes.find? name = none ∧ t.state.writes.find? name = none ∧ t.state.readsOf name = []) ∧
    ∀ n start tick, opened n.id = some start →
      (∃ ts, n.inputTensors = .ok ts) → (∃ ts, n.outputTensors = .ok ts) →
        ((∃ x t', recordEnd n tick t = .error (.error x) t') ↔
          Mention.Contradicts log (n.mentions start tick)) ∧
        ((∃ t', recordEnd n tick t = .ok () t') ↔
          ¬Mention.Contradicts log (n.mentions start tick)) := by
  obtain ⟨follows, legible⟩ := (h.ends_calls sysId j).of_ok returned
  refine ⟨legible, fun e he => follows.sizes_of_mem he,
    Mention.length_writes_le_one follows.consistent,
    fun e he hwrite => follows.logs.writes_of_write follows.consistent he hwrite,
    fun name => follows.writes_eq_assumed_iff h.activity_ne_assumed, follows.logs.reads,
    fun name => follows.unknown, fun n start tick interval inputs outputs => ?_⟩
  have hends := follows.recordEnd interval inputs outputs tick t.journal
  refine ⟨⟨fun ⟨x, t', hr⟩ => (hends.of_error hr).1, fun hbad => ?_⟩,
    fun ⟨t', hr⟩ => (hends.of_ok hr).1, fun hgood => ?_⟩
  · obtain ⟨_, _, -, hgood, -⟩ | ⟨_, t', hr, -, x, rfl⟩ := hends.outcome
    · exact absurd hbad hgood
    · exact ⟨x, t', hr⟩
  · obtain ⟨_, t', hr, -⟩ | ⟨_, _, -, hbad, -⟩ := hends.outcome
    · exact ⟨t', hr⟩
    · exact absurd hbad hgood

/-- A task that reads and writes tensors. -/
def touching (id : NodeId) (inputs outputs : List String) : Node :=
  { id, name := "task", kind := .compute, dataDeps := [], ctrlDeps := []
    attributes := { inputs := some inputs, outputs := some outputs } }

/-- Two intervals that overlap.  The second task reads a tensor of the first twice, and one that nobody has
written; the interval of a third task stays open. -/
def interleaved : List Call :=
  [.start 1 0, .start 2 1, .finish (touching 1 [] ["a", "8"]) 5,
    .finish (touching 2 ["a", "8", "w", "4", "a", "8"] []) 6, .start 3 7]

/-- Each read counts.  The third task may not read a tensor with another size, nor write one that it
reads. -/
theorem tables_faithful_interleaved : ∃ t, interleaved.forM Call.act ⟨{ sysId := 0 }, #[]⟩ = .ok () t ∧
    t.state.writes.find? "a" = some ⟨0, 5, some 1⟩ ∧ t.state.writes.find? "w" = some .assumed ∧
    t.state.readsOf "a" = [⟨1, 6, some 2⟩, ⟨1, 6, some 2⟩] ∧ t.state.sizes.find? "b" = none ∧
    (∃ x t', recordEnd (touching 3 ["w", "5"] []) 9 t = .error (.error x) t') ∧
    ∃ x t', recordEnd (touching 3 ["b", "2"] ["b", "2"]) 9 t = .error (.error x) t' := by
  have recorded := ((((History.nil.start 1 rfl 0).start 2 rfl 1).finish
    (touching 1 [] ["a", "8"]) rfl 5).finish
    (touching 2 ["a", "8", "w", "4", "a", "8"] []) rfl 6).start 3 rfl 7
  have history : History interleaved _ [.ofWrite 1 0 5 ⟨"a", 8⟩, .ofRead 2 1 6 ⟨"a", 8⟩,
    .ofRead 2 1 6 ⟨"w", 4⟩, .ofRead 2 1 6 ⟨"a", 8⟩] := recorded
  have hruns : Ends (interleaved.forM Call.act) ⟨{ sysId := 0 }, #[]⟩ (fun _ _ => True)
      fun _ _ => False := by decide +kernel
  obtain ⟨_, t, returned, -⟩ := hruns.exists_ok
  obtain ⟨-, -, -, hwrites, hassumed, hreads, hunknown, hnext⟩ := tables_faithful history returned
  refine ⟨t, returned, ?_, ?_, ?_, ?_, ?_, ?_⟩
  · exact hwrites (.ofWrite 1 0 5 ⟨"a", 8⟩) (by simp) rfl
  · exact (hassumed "w").2 ⟨⟨.ofRead 2 1 6 ⟨"w", 4⟩, by simp, rfl⟩,
      by simp [Mention.ofRead, Mention.ofWrite]⟩
  · rw [hreads]
    rfl
  · exact (hunknown "b" (by simp [Mention.ofRead, Mention.ofWrite])).1
  · obtain ⟨hfails, -⟩ := hnext (touching 3 ["w", "5"] []) 7 9 rfl ⟨_, rfl⟩ ⟨_, rfl⟩
    exact hfails.2 ⟨[], .ofRead 3 7 9 ⟨"w", 5⟩, [], rfl, .ofRead 2 1 6 ⟨"w", 4⟩, by simp, rfl,
      .inl (by decide)⟩
  · obtain ⟨hfails, -⟩ := hnext (touching 3 ["b", "2"] ["b", "2"]) 7 9 rfl ⟨_, rfl⟩ ⟨_, rfl⟩
    exact hfails.2 ⟨[.ofRead 3 7 9 ⟨"b", 2⟩], .ofWrite 3 7 9 ⟨"b", 2⟩, [], rfl,
      .ofRead 3 7 9 ⟨"b", 2⟩, by simp, rfl, .inr rfl⟩

end

end Tracker

end TraceReplay
