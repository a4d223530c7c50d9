/-
**Busy time is the number of busy ticks.**

The busy time of intervals is computed by sorting them and merging those that touch.  Here it is shown
to be what it is meant to be: the number of ticks that some interval covers, however the intervals
overlap, as long as that number is a counter.  It is one if all ends are.  So the busy times of a report
count the ticks at which some completed node of a category was active, and none exceeds the wall time.

Main definitions:

* `Interval.covered` — the ticks that intervals cover;
* `Statistics.activeTicks`, `Statistics.activeTimes` — the ticks at which some completed node of a category
  was active, and how many there are.

Main results:

* `BusyTime.merge_eq` — merging counts the ticks that are covered;
* `busyTime_eq` — **the busy time is the number of ticks that are covered**;
* `Interval.ncard_covered_le` — there are no more of them than the last end;
* `typeTimes_eq` — so the busy times of the categories are counters as well;
* `Statistics.typeTimes_eq_activeTimes` — they are the numbers of active ticks;
* `busyTime_exact` — **busy times measure unions, alone and in a report**.
-/

import Mathlib.Data.Set.Card
import Mathlib.Order.Interval.Finset.Nat
import TraceReplay.Proofs.Engine.Invariant
import TraceReplay.Proofs.Engine.Returns

set_option relaxedAutoImplicit false
set_option autoImplicit false

namespace TraceReplay

open TraceReplay.Action

/-! ### Ticks that are covered -/

namespace Interval

/-- The ticks that intervals cover; the end of an interval is not part of it. -/
def covered (l : List Interval) : Set Tick := {t | ∃ i ∈ l, i.1 ≤ t ∧ t < i.2}

@[simp] theorem mem_covered {l : List Interval} {t : Tick} :
    t ∈ covered l ↔ ∃ i ∈ l, i.1 ≤ t ∧ t < i.2 := Iff.rfl

theorem covered_nil : covered [] = ∅ := by
  ext t
  simp

theorem covered_cons (i : Interval) (l : List Interval) :
    covered (i :: l) = Set.Ico i.1 i.2 ∪ covered l := by
  ext t
  simp

theorem covered_congr {l l' : List Interval} (h : ∀ i, i ∈ l ↔ i ∈ l') : covered l = covered l' := by
  ext t
  simp only [mem_covered, h]

theorem finite_covered (l : List Interval) : (covered l).Finite := by
  induction l with
  | nil => rw [covered_nil]; exact Set.finite_empty
  | cons i l ih => rw [covered_cons]; exact (Set.finite_Ico _ _).union ih

theorem ncard_Ico (a b : Tick) : (Set.Ico a b).ncard = b - a := by
  rw [← Finset.coe_Ico, Set.ncard_coe_finset, Nat.card_Ico]

/-- No more ticks are covered than there are before the last end. -/
theorem ncard_covered_le {l : List Interval} {last : Tick} (h : ∀ i ∈ l, i.2 ≤ last) :
    (covered l).ncard ≤ last := by
  have hsubset : covered l ⊆ Set.Ico 0 last := by
    rintro t ⟨i, hi, -, ht⟩
    exact ⟨Nat.zero_le _, Nat.lt_of_lt_of_le ht (h i hi)⟩
  have hle := Set.ncard_le_ncard hsubset (Set.finite_Ico _ _)
  rwa [ncard_Ico, Nat.sub_zero] at hle

/-- If an interval starts within another that starts no later, they cover what their union covers. -/
theorem covered_overlap {start finish s f : Tick} (hstart : start ≤ s) (hs : s ≤ finish)
    (l : List Interval) :
    covered ((start, finish) :: (s, f) :: l) = covered ((start, max finish f) :: l) := by
  rw [covered_cons, covered_cons, covered_cons, ← Set.union_assoc]
  congr 1
  ext t
  simp only [Set.mem_union, Set.mem_Ico, lt_sup_iff]
  grind

/-- An interval that ends before the others start covers ticks of its own. -/
theorem ncard_covered_apart {start finish : Tick} {l : List Interval}
    (h : ∀ i ∈ l, finish ≤ i.1) :
    (covered ((start, finish) :: l)).ncard = (finish - start) + (covered l).ncard := by
  have hdisjoint : Disjoint (Set.Ico start finish) (covered l) := by
    rw [Set.disjoint_left]
    rintro t ⟨-, ht⟩ ⟨i, hi, hit, -⟩
    exact absurd ht (Nat.not_lt.2 (Nat.le_trans (h i hi) hit))
  rw [covered_cons, Set.ncard_union_eq hdisjoint (Set.finite_Ico _ _) (finite_covered l), ncard_Ico]

end Interval

/-! ### Merging -/

namespace BusyTime

open TraceReplay.Interval

/-- **Merging counts the ticks that are covered**, if they are no more than a counter can count. -/
theorem merge_eq {l : List Interval} : ∀ {total : Nat} {start finish : Tick}, start ≤ finish →
    (∀ i ∈ l, start ≤ i.1) → Forward l → l.Pairwise (fun a b => a.1 ≤ b.1) →
      total + (covered ((start, finish) :: l)).ncard < Counter.limit →
        merge total start finish l = .ok (total + (covered ((start, finish) :: l)).ncard) := by
  induction l with
  | nil =>
      intro total start finish hle _ _ _ hlt
      rw [ncard_covered_apart (by simp), covered_nil, Set.ncard_empty, Nat.add_zero] at hlt ⊢
      rw [merge, Counter.sub_of_le hle]
      exact Counter.add_of_lt hlt
  | cons interval l ih =>
      intro total start finish hle hlater hforward hsorted hlt
      obtain ⟨s, f⟩ := interval
      obtain ⟨hfirst, hrest⟩ := List.pairwise_cons.1 hsorted
      have hforward' : Forward l := fun i hi => hforward i (List.mem_cons_of_mem _ hi)
      have hs : start ≤ s := hlater (s, f) List.mem_cons_self
      rw [merge]
      split
      next htouch =>
        rw [covered_overlap hs htouch] at hlt ⊢
        exact ih (Nat.le_trans hle (Nat.le_max_left _ _))
          (fun i hi => hlater i (List.mem_cons_of_mem _ hi)) hforward' hrest hlt
      next hapart =>
        -- the merged interval is counted, and the next one starts a new one
        have hends : ∀ i ∈ (s, f) :: l, finish ≤ i.1 := by
          have hfs : finish ≤ s := Nat.le_of_lt (Nat.lt_of_not_le hapart)
          intro i hi
          rcases List.mem_cons.1 hi with rfl | hi
          · exact hfs
          · exact Nat.le_trans hfs (hfirst i hi)
        rw [ncard_covered_apart hends, ← Nat.add_assoc] at hlt ⊢
        rw [Counter.sub_of_le hle]
        show (Counter.add total (finish - start) >>= fun total => merge total s f l) = _
        rw [Counter.add_of_lt (by omega)]
        exact ih (hforward (s, f) List.mem_cons_self) hfirst hforward' hrest hlt

theorem before_iff {a b : Interval} :
    before a b = true ↔ a.1 < b.1 ∨ a.1 = b.1 ∧ a.2 ≤ b.2 := by
  simp [before]

end BusyTime

/-- **The busy time is the number of ticks that are covered**, if it is a counter. -/
theorem busyTime_eq {l : List Interval} (hforward : Forward l)
    (hlt : (Interval.covered l).ncard < Counter.limit) :
    busyTime l = .ok (Interval.covered l).ncard := by
  have hcovered : Interval.covered (l.mergeSort BusyTime.before) = Interval.covered l :=
    Interval.covered_congr fun i => List.mem_mergeSort
  have hsorted : (l.mergeSort BusyTime.before).Pairwise fun a b => a.1 ≤ b.1 := by
    refine (List.pairwise_mergeSort (fun a b c hab hbc => ?_) (fun a b => ?_) l).imp ?_
    · rw [BusyTime.before_iff] at hab hbc ⊢
      grind
    · rw [Bool.or_eq_true, BusyTime.before_iff, BusyTime.before_iff]
      grind
    · intro a b hab
      rw [BusyTime.before_iff] at hab
      grind
  have hforward' : Forward (l.mergeSort BusyTime.before) := fun i hi =>
    hforward i (List.mem_mergeSort.1 hi)
  rw [← hcovered] at hlt ⊢
  unfold busyTime
  split
  next hnil => rw [hnil, Interval.covered_nil, Set.ncard_empty]
  next s f rest hcons =>
    rw [hcons] at hlt hsorted hforward' ⊢
    obtain ⟨hfirst, hrest⟩ := List.pairwise_cons.1 hsorted
    rw [← Nat.zero_add (Interval.covered _).ncard] at hlt ⊢
    exact BusyTime.merge_eq (hforward' _ List.mem_cons_self) hfirst
      (fun i hi => hforward' i (List.mem_cons_of_mem _ hi)) hrest hlt

/-- Two computations that overlap, and one that ends where the second does, run for five ticks. -/
example : busyTime [(3, 5), (0, 2), (1, 4)] = .ok 5 := by cbv

/-- **The busy time of each category is the number of ticks at which a node of it is in flight**, as long
as the last end is a counter. -/
theorem typeTimes_eq {records : List Record} {last : Tick} (hforward : Record.Forward records)
    (hlast : ∀ r ∈ records, ∀ finish, r.finish = some finish → finish ≤ last)
    (hlt : last < Counter.limit) :
    typeTimes records = .ok ((OperatorType.all.filter fun t => intervalsOf records t ≠ []).map fun t =>
      (t, (Interval.covered (intervalsOf records t)).ncard)) := by
  refine Except.mapM_eq_ok fun t _ => ?_
  have hrecord {i : Interval} (hi : i ∈ intervalsOf records t) : i.1 ≤ i.2 ∧ i.2 ≤ last := by
    obtain ⟨r, hr, hinterval⟩ := List.mem_filterMap.1 hi
    obtain ⟨finish, hfinish, rfl⟩ := Option.map_eq_some_iff.1 hinterval
    have hr := (List.mem_filter.1 hr).1
    exact ⟨hforward r hr finish hfinish, hlast r hr finish hfinish⟩
  rw [busyTime_eq (fun i hi => (hrecord hi).1)
    (Nat.lt_of_le_of_lt (Interval.ncard_covered_le fun i hi => (hrecord hi).2) hlt)]
  rfl

/-! ### Statistics -/

/-- Intervals that end at counters cover as many ticks as a counter can count. -/
theorem Interval.ncard_covered_lt {l : List Interval} (h : ∀ i ∈ l, i.2 < Counter.limit) :
    (covered l).ncard < Counter.limit := by
  have hle : (covered l).ncard ≤ Counter.greatest :=
    ncard_covered_le fun i hi => Nat.le_sub_one_of_lt (h i hi)
  exact Nat.lt_of_le_of_lt hle (by decide)

namespace Statistics

/-- The ticks at which some completed node of a category was active. -/
def activeTicks (s : Statistics) (t : OperatorType) : Set Tick :=
  {tick | ∃ r ∈ s.records.values, r.operatorType = t ∧ r.finish.isSome = true ∧ r.activeAt tick = true}

/-- How many there are of these, for each category with completed nodes. -/
noncomputable def activeTimes (s : Statistics) : List (OperatorType × Tick) :=
  (OperatorType.all.filter fun t => intervalsOf s.records.values t ≠ []).map fun t =>
    (t, (s.activeTicks t).ncard)

variable {s : Statistics} {t : OperatorType}

theorem mem_intervalsOf {i : Interval} : i ∈ intervalsOf s.records.values t ↔
    ∃ r ∈ s.records.values, r.operatorType = t ∧ r.start = i.1 ∧ r.finish = some i.2 := by
  obtain ⟨start, finish⟩ := i
  simp only [intervalsOf, List.mem_filterMap, List.mem_filter, decide_eq_true_eq, Record.interval?,
    Option.map_eq_some_iff, Prod.mk.injEq, exists_eq_right_right, and_assoc]
  grind

/-- The intervals of a category cover these ticks. -/
theorem covered_intervalsOf : Interval.covered (intervalsOf s.records.values t) = s.activeTicks t := by
  ext tick
  simp only [Interval.mem_covered, mem_intervalsOf, activeTicks]
  constructor
  · rintro ⟨i, ⟨r, hr, ht, hstart, hfinish⟩, hle, hlt⟩
    exact ⟨r, hr, ht, by rw [hfinish]; rfl, by simp [Record.activeAt, hfinish, hstart, hle, hlt]⟩
  · rintro ⟨r, hr, ht, hended, hactive⟩
    obtain ⟨finish, hfinish⟩ := Option.isSome_iff_exists.1 hended
    simp only [Record.activeAt, hfinish, Bool.and_eq_true, decide_eq_true_eq] at hactive
    exact ⟨(r.start, finish), ⟨r, hr, ht, rfl, hfinish⟩, hactive⟩

theorem intervalsOf_ne_nil_iff : intervalsOf s.records.values t ≠ [] ↔
    ∃ r ∈ s.records.values, r.operatorType = t ∧ r.finish.isSome = true := by
  simp only [ne_eq, List.eq_nil_iff_forall_not_mem, not_forall, not_not, mem_intervalsOf,
    Option.isSome_iff_exists]
  constructor
  · rintro ⟨i, r, hr, ht, -, hfinish⟩
    exact ⟨r, hr, ht, i.2, hfinish⟩
  · rintro ⟨r, hr, ht, finish, hfinish⟩
    exact ⟨(r.start, finish), r, hr, ht, rfl, hfinish⟩

/-- No node ends after the last end. -/
theorem le_wallTime {r : Record} (hr : r ∈ s.records.values) {finish : Tick}
    (h : r.finish = some finish) : finish ≤ s.wallTime :=
  Counter.le_foldl_max 0 (List.mem_filterMap.2 ⟨r, hr, h⟩)

theorem mem_activeTimes {time : Tick} : (t, time) ∈ s.activeTimes ↔
    (∃ r ∈ s.records.values, r.operatorType = t ∧ r.finish.isSome = true) ∧
      time = (s.activeTicks t).ncard := by
  have hall : t ∈ OperatorType.all := by cases t <;> decide
  rw [← intervalsOf_ne_nil_iff, activeTimes, List.mem_map]
  constructor
  · rintro ⟨t, ht, ⟨⟩⟩
    exact ⟨of_decide_eq_true (List.mem_filter.1 ht).2, rfl⟩
  · rintro ⟨hended, rfl⟩
    exact ⟨t, List.mem_filter.2 ⟨hall, decide_eq_true hended⟩, rfl⟩

theorem nodup_activeTimes : (s.activeTimes.map Prod.fst).Nodup := by
  rw [activeTimes, List.map_map]
  exact (List.Nodup.filter _ (by decide : OperatorType.all.Nodup)).map fun _ _ h => h

/-- No category is active for longer than until the last end. -/
theorem le_wallTime_of_mem_activeTimes {e : OperatorType × Tick} (he : e ∈ s.activeTimes) :
    e.2 ≤ s.wallTime := by
  rw [(mem_activeTimes.1 he).2, ← covered_intervalsOf]
  refine Interval.ncard_covered_le fun i hi => ?_
  obtain ⟨r, hr, -, -, hfinish⟩ := mem_intervalsOf.1 hi
  exact le_wallTime hr hfinish

/-- **The busy times are the numbers of active ticks.** -/
theorem typeTimes_eq_activeTimes (h : ∀ r ∈ s.records.values, ∀ finish, r.finish = some finish →
      r.start ≤ finish ∧ finish < Counter.limit) : s.typeTimes = .ok s.activeTimes := by
  have hlast : s.wallTime < Counter.limit := by
    have hle : s.wallTime ≤ Counter.greatest := by
      refine Counter.foldl_max_le_iff.2 ⟨Nat.zero_le _, fun finish hfinish => ?_⟩
      obtain ⟨r, hr, hfinish⟩ := List.mem_filterMap.1 hfinish
      exact Nat.le_sub_one_of_lt (h r hr finish hfinish).2
    exact Nat.lt_of_le_of_lt hle (by decide)
  simp only [typeTimes, activeTimes, ← covered_intervalsOf,
    TraceReplay.typeTimes_eq (fun r hr finish hfinish => (h r hr finish hfinish).1)
      (fun r hr finish hfinish => le_wallTime hr hfinish) hlast]

end Statistics

/-- **Busy times measure unions, alone and in a report.**  The busy time of intervals that do not end before
they start is the number of ticks that they cover, and no sum or difference leaves the range of counters.
So there is a busy time for each category with a completed node and for no other, it is the number of ticks
at which some completed node of the category was active, and a report gives these busy times, none of which
exceeds its wall time. -/
theorem busyTime_exact :
    (∀ l : List Interval, (∀ i ∈ l, i.1 ≤ i.2 ∧ i.2 < Counter.limit) →
      busyTime l = .ok {t | ∃ i ∈ l, i.1 ≤ t ∧ t < i.2}.ncard) ∧
    ∀ s : Statistics, (∀ r ∈ s.records.values, ∀ finish, r.finish = some finish →
        r.start ≤ finish ∧ finish < Counter.limit) →
      ∃ times, s.typeTimes = .ok times ∧ (times.map Prod.fst).Nodup ∧
        (∀ t time, (t, time) ∈ times ↔
          (∃ r ∈ s.records.values, r.operatorType = t ∧ r.finish.isSome = true) ∧
            time = {tick | ∃ r ∈ s.records.values, r.operatorType = t ∧ r.finish.isSome = true ∧
              r.activeAt tick = true}.ncard) ∧
        (∀ e ∈ times, e.2 ≤ s.wallTime) ∧
        ∀ j report state, Statistics.summarize ⟨s, j⟩ = .ok report state →
          report.typeTimes = times ∧ ∀ e ∈ report.typeTimes, e.2 ≤ report.wallTime := by
  refine ⟨fun l hl => ?_, fun s hs => ?_⟩
  · exact busyTime_eq (fun i hi => (hl i hi).1) (Interval.ncard_covered_lt fun i hi => (hl i hi).2)
  · have htimes := Statistics.typeTimes_eq_activeTimes hs
    have hbound : ∀ e ∈ s.activeTimes, e.2 ≤ s.wallTime := fun e =>
      Statistics.le_wallTime_of_mem_activeTimes
    refine ⟨s.activeTimes, htimes, Statistics.nodup_activeTimes,
      fun t time => Statistics.mem_activeTimes, hbound, fun j report state hreport => ?_⟩
    obtain ⟨timeline, -, sums⟩ := (s.ends_summarize_returned j).of_ok hreport
    have hreported : report.typeTimes = s.activeTimes :=
      (Except.ok.inj (htimes.symm.trans sums.typeTimes)).symm
    rw [hreported, show report.wallTime = s.wallTime from sums.wallTime]
    exact ⟨rfl, hbound⟩

/-- Two computations that overlap, and a transfer that ends at the last tick that can be counted. -/
def Statistics.overlapping : Statistics :=
  let record (node : NodeId) (operatorType : OperatorType) (start finish : Tick) : Record :=
    { node, operatorType, start, finish := some finish }
  let records : SortedMap NodeId Record :=
    ((∅ : SortedMap NodeId Record).insert 1 (record 1 .cpu 0 2)).insert 2 (record 2 .cpu 1 4)
  { sysId := 0, records := records.insert 3 (record 3 .comm 3 Counter.greatest) }

/-- Their report has a busy time for each of their two categories, and for no other. -/
theorem busyTime_exact_overlapping :
    busyTime [(1, 4), (3, Counter.greatest), (0, 2)] =
      .ok {t | ∃ i ∈ [(1, 4), (3, Counter.greatest), (0, 2)], i.1 ≤ t ∧ t < i.2}.ncard ∧
    ∃ report state, Statistics.summarize ⟨.overlapping, #[]⟩ = .ok report state ∧
      (∃ time, (.cpu, time) ∈ report.typeTimes ∧ time ≤ report.wallTime) ∧
      ∀ time, (.gpu, time) ∉ report.typeTimes := by
  obtain ⟨hunion, hreport⟩ := busyTime_exact
  obtain ⟨times, htimes, -, hentry, -, hreturned⟩ := hreport .overlapping (by decide)
  have hends : Ends Statistics.summarize ⟨.overlapping, #[]⟩ (fun _ _ => True) fun _ _ => False := by
    obtain ⟨means, hmeans⟩ : ∃ means, Statistics.overlapping.utilizations = .ok means := ⟨_, rfl⟩
    simp only [Statistics.summarize, ends_bind, ends_get, ends_note]
    rw [show Statistics.overlapping.unfinished? = none from rfl, htimes, hmeans]
    trivial
  refine ⟨hunion _ (by decide), ?_⟩
  obtain ⟨report, state, hok, -⟩ := hends.exists_ok
  obtain ⟨rfl, hbound⟩ := hreturned _ _ _ hok
  have hcpu := (hentry .cpu _).2 ⟨by decide, rfl⟩
  refine ⟨report, state, hok, ⟨_, hcpu, hbound _ hcpu⟩, fun time hgpu => ?_⟩
  exact absurd ((hentry .gpu time).1 hgpu).1 (by decide)

end TraceReplay
