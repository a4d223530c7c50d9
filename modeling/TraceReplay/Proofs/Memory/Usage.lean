/-
**The timeline is read as it was meant.**

A timeline answers two questions about a tick: how many bytes are in use, and which tensors are in
memory.  The first is answered by the samples, of which the right one is found by halving, and the second
by the lifetimes.  Here it is shown that both answers are about the same tensors, those that are written
and not yet read for the last time, whether tensors come and go at one tick or are gone at the tick at
which they came.

Main results:

* `Timeline.lastUpTo?_eq` — halving finds the last sample not behind a tick;
* `Tracker.liveAt_congr` — the tensors in memory stay the same until the next change;
* `Tracker.liveBytes_le` — their bytes are at most those of all tensors;
* `Tracker.timeline_shows_traffic` — **the timeline shows at each tick the tensors in memory and their
  bytes**, of which the peak is the greatest.
-/

import Mathlib.Data.List.Pairwise
import Mathlib.Order.Bounds.Basic
import TraceReplay.Proofs.Memory.Liveness

set_option relaxedAutoImplicit false
set_option autoImplicit false

namespace TraceReplay

/-- The values found under different keys add up to at most all values. -/
theorem SortedMap.sum_find?_le {κ : Type} [Key κ] {ks : List κ} (hks : ks.Nodup) :
    ∀ m : SortedMap κ Nat, (ks.map fun k => (m.find? k).getD 0).sum ≤ m.values.sum := by
  induction ks with
  | nil => exact fun m => Nat.zero_le _
  | cons k ks ih =>
      intro m
      obtain ⟨hk, hks⟩ := List.nodup_cons.1 hks
      rw [List.map_cons, List.sum_cons]
      cases hfind : m.find? k with
      | none => simpa using ih hks m
      | some v =>
          have hrest : (ks.map fun k' => (m.find? k').getD 0) =
              ks.map fun k' => ((m.erase k).find? k').getD 0 := by
            refine List.map_congr_left fun k' hk' => ?_
            rw [find?_erase_of_ne m (ne_of_mem_of_not_mem hk' hk)]
          have hvalues : m.values.sum = v + (m.erase k).values.sum :=
            ((perm_of_find? hfind).map Prod.snd).sum_eq
          rw [hrest, hvalues]
          exact Nat.add_le_add_left (ih hks _) v

/-! ### Halving -/

namespace Timeline

variable {samples : List Sample} {tick : Tick}

/-- Samples after which another one is not behind the tick do not matter. -/
theorem getLast?_filter_append {earlier later : List Sample} (h : later.head?.any fun s => s.tick ≤ tick) :
    ((earlier ++ later).filter fun s => s.tick ≤ tick).getLast? =
      (later.filter fun s => s.tick ≤ tick).getLast? := by
  cases later with
  | nil => cases h
  | cons s later =>
      rw [List.filter_append, List.filter_cons_of_pos (a := s) h, List.getLast?_append_cons]

/-- All samples are behind the tick if the first one is. -/
theorem filter_eq_nil {later : List Sample} (sorted : later.Pairwise fun a b => a.tick < b.tick)
    (h : ¬later.head?.any fun s => s.tick ≤ tick) : (later.filter fun s => s.tick ≤ tick) = [] := by
  cases later with
  | nil => rfl
  | cons s later =>
      have hs : tick < s.tick := by simpa using h
      refine List.filter_eq_nil_iff.2 fun s' hs' => ?_
      rcases List.mem_cons.1 hs' with rfl | hs'
      · simpa using hs
      · simpa using Nat.lt_trans hs ((List.pairwise_cons.1 sorted).1 s' hs')

/-- **Halving finds the last sample not behind a tick.** -/
theorem lastUpTo?_eq (sorted : samples.Pairwise fun a b => a.tick < b.tick) :
    lastUpTo? tick samples = (samples.filter fun s => s.tick ≤ tick).getLast? := by
  fun_induction lastUpTo? tick samples with
  | case1 => rfl
  | case2 s h => simp [h]
  | case3 s h => simp [h]
  | case4 s s' rest samples half hhead ih =>
      rw [ih (sorted.sublist (List.drop_sublist _ _))]
      conv_rhs => rw [← List.take_append_drop half (s :: s' :: rest)]
      exact (getLast?_filter_append hhead).symm
  | case5 s s' rest samples half hhead ih =>
      rw [ih (sorted.sublist (List.take_sublist _ _))]
      conv_rhs => rw [← List.take_append_drop (samples.length - half) (s :: s' :: rest)]
      -- the samples left out are among those of the later half, and these are all behind the tick
      have hbehind : (samples.drop (samples.length - half)).filter (fun s => s.tick ≤ tick) = [] := by
        refine List.sublist_nil.1 ?_
        rw [← filter_eq_nil (sorted.sublist (List.drop_sublist half _)) hhead]
        exact (List.drop_sublist_drop_left _ (by omega)).filter _
      rw [List.filter_append, hbehind, List.append_nil]

end Timeline

namespace Tracker

variable {m : Tracker} {t c : Tick}

/-! ### Between two changes -/

/-- The last of some changes is the greatest one. -/
theorem le_of_getLast? {ts : List Tick} (hsorted : ts.Pairwise (· < ·)) (h : ts.getLast? = some c) :
    ∀ c' ∈ ts, c' ≤ c := by
  intro c' hc'
  have hlast : ts.getLast (List.ne_nil_of_mem hc') = c := (List.getLast_eq_iff_getLast?_eq_some _).2 h
  exact hlast ▸ (hsorted.imp Nat.le_of_lt).rel_getLast hc'

/-- A tensor is in memory from the start of its write until its write and all its reads have ended. -/
theorem mem_liveAt {name : String} : name ∈ m.liveAt t ↔ ∃ w, m.writes.find? name = some w ∧
    w.start ≤ t ∧ (t < w.finish ∨ ∃ r ∈ m.readsOf name, t < r.finish) := by
  have hfree (w : Activity) : t < (m.lifetimeOf name w).free ↔
      t < w.finish ∨ ∃ r ∈ m.readsOf name, t < r.finish := by
    rw [← Nat.not_le, lifetimeOf, Counter.foldl_max_le_iff]
    simp only [List.forall_mem_map, not_and_or, not_forall, Nat.not_le, exists_prop]
  simp only [liveAt, covering, lifetimes, List.mem_map, List.mem_filter, Lifetime.covers_iff]
  constructor
  · rintro ⟨_, ⟨⟨⟨name, w⟩, hw, rfl⟩, halloc, htick⟩, rfl⟩
    exact ⟨w, (SortedMap.mem_toList_iff _ _ _).1 hw, halloc, (hfree w).1 htick⟩
  · rintro ⟨w, hw, halloc, htick⟩
    exact ⟨_, ⟨⟨(name, w), (SortedMap.mem_toList_iff _ _ _).2 hw, rfl⟩, halloc, (hfree w).2 htick⟩, rfl⟩

/-- The tensors in memory are listed in the order of their names. -/
theorem pairwise_liveAt : (m.liveAt t).Pairwise (· < ·) := by
  have hnames : (m.lifetimes.map Prod.fst).Pairwise (· < ·) := by
    rw [lifetimes, List.map_map]
    exact m.writes.keys_pairwise
  exact hnames.sublist (List.filter_sublist.map _)

/-- **Until the next change the tensors in memory stay the same.** -/
theorem liveAt_congr (hle : c ≤ t) (h : ∀ c' ∈ changes m.lifetimes, c' ≤ t → c' ≤ c) :
    m.liveAt t = m.liveAt c := by
  refine congrArg (List.map Prod.fst) (List.filter_congr fun l hl => ?_)
  have halloc := h l.2.alloc (mem_changes.2 ⟨l, hl, .inl rfl⟩)
  have hfree := h l.2.free (mem_changes.2 ⟨l, hl, .inr rfl⟩)
  rw [Bool.eq_iff_iff, Lifetime.covers_iff, Lifetime.covers_iff]
  grind

/-- Before the first change no tensor is in memory. -/
theorem liveAt_of_forall_lt (h : ∀ c ∈ changes m.lifetimes, t < c) : m.liveAt t = [] := by
  refine List.map_eq_nil_iff.2 (List.filter_eq_nil_iff.2 fun l hl hcovers => ?_)
  exact Nat.not_le.2 (h _ (mem_changes.2 ⟨l, hl, .inl rfl⟩)) (Lifetime.covers_iff.1 hcovers).1

/-- After the last change no tensor is in memory. -/
theorem liveAt_of_forall_le (h : ∀ c ∈ changes m.lifetimes, c ≤ t) : m.liveAt t = [] := by
  refine List.map_eq_nil_iff.2 (List.filter_eq_nil_iff.2 fun l hl hcovers => ?_)
  exact Nat.not_lt.2 (h _ (mem_changes.2 ⟨l, hl, .inr rfl⟩)) (Lifetime.covers_iff.1 hcovers).2

/-! ### The bytes of all tensors -/

/-- The bytes in memory are at most those of all tensors. -/
theorem liveBytes_le (m : Tracker) (t : Tick) : m.liveBytes t ≤ m.sizes.values.sum := by
  have hnodup : (m.liveAt t).Nodup := pairwise_liveAt.imp fun {a b} hlt heq => by
    rw [heq] at hlt
    exact Key.lt_irrefl b hlt
  exact SortedMap.sum_find?_le hnodup m.sizes

/-- So they fit if those of all tensors do. -/
theorem fits_of_sum_lt (h : m.sizes.values.sum < Counter.limit) : m.Fits := fun t =>
  Nat.lt_of_le_of_lt (m.liveBytes_le t) h

/-! ### Reading the timeline -/

/-- The lifetimes kept in a timeline are those of the tensors, in the same order. -/
theorem toList_foldl_lifetimes (m : Tracker) :
    (m.lifetimes.foldl (fun ls l => ls.insert l.1 l.2) (∅ : SortedMap String Lifetime)).toList =
      m.lifetimes := by
  let kept : SortedMap String Lifetime :=
    ⟨m.lifetimes, List.pairwise_map.2 (m.writes.ascending.imp fun h => h)⟩
  show _ = kept.toList
  congr 1
  refine SortedMap.ext_find? fun name => Option.ext fun l => ?_
  rw [SortedMap.find?_foldl_insert m.nodup_lifetimes, ← kept.mem_toList_iff]
  simp [kept]

theorem liveAt_foldl_lifetimes {timeline : Timeline}
    (h : timeline.lifetimes = m.lifetimes.foldl (fun ls l => ls.insert l.1 l.2) ∅) (t : Tick) :
    timeline.liveAt t = m.liveAt t := by
  rw [Timeline.liveAt, h, toList_foldl_lifetimes]
  rfl

/-- **The use read off the samples at a tick are the bytes in memory**, which are those at the last change
up to it. -/
theorem usageAt_eq {timeline : Timeline}
    (h : timeline.samples = (changes m.lifetimes).map fun t => ⟨t, m.liveBytes t⟩) (t : Tick) :
    timeline.usageAt t = m.liveBytes t := by
  have hsorted : (timeline.samples).Pairwise fun a b => a.tick < b.tick := by
    rw [h]
    exact List.pairwise_map.2 (ascending_pairwise _)
  rw [Timeline.usageAt, Timeline.lastUpTo?_eq hsorted, h, List.filter_map, List.getLast?_map]
  cases hlast : ((changes m.lifetimes).filter fun c => c ≤ t).getLast? with
  | none =>
      have hnone := List.filter_eq_nil_iff.1 (List.getLast?_eq_none_iff.1 hlast)
      have hlive : m.liveAt t = [] := liveAt_of_forall_lt fun c hc => by simpa using hnone c hc
      simp [Function.comp_def, hlast, liveBytes, hlive]
  | some c =>
      have hc : c ≤ t := by simpa using (List.mem_filter.1 (List.mem_of_getLast? hlast)).2
      have hgreatest := le_of_getLast? ((ascending_pairwise _).filter _) hlast
      have hlive : m.liveAt t = m.liveAt c := liveAt_congr hc fun c' hmem hle =>
        hgreatest c' (List.mem_filter.2 ⟨hmem, by simpa using hle⟩)
      simp [Function.comp_def, hlast, liveBytes, hlive]

/-- The peak is the greatest use. -/
theorem isGreatest_peak {timeline : Timeline}
    (h : timeline.samples = (changes m.lifetimes).map fun t => ⟨t, m.liveBytes t⟩) :
    IsGreatest (Set.range timeline.usageAt) timeline.peak := by
  have hpeak : timeline.peak = ((changes m.lifetimes).map m.liveBytes).foldl max 0 := by
    rw [Timeline.peak, h, List.map_map]
    rfl
  have hbound : ∀ t, timeline.usageAt t ≤ timeline.peak := fun t => by
    rw [usageAt_eq h, hpeak]
    rcases Nat.eq_zero_or_pos (m.liveBytes t) with hzero | hpos
    · rw [hzero]
      exact Nat.zero_le _
    · obtain ⟨c, hc, hle⟩ := exists_change hpos
      exact Nat.le_trans hle (Counter.le_foldl_max 0 (List.mem_map_of_mem hc))
  refine ⟨?_, Set.forall_mem_range.2 hbound⟩
  rcases Counter.foldl_max_mem ((changes m.lifetimes).map m.liveBytes) 0 with hzero | hmem
  · -- then nothing is ever in use
    exact ⟨0, Nat.le_antisymm (hbound 0) (by rw [hpeak, hzero]; exact Nat.zero_le _)⟩
  · obtain ⟨c, -, hc⟩ := List.mem_map.1 hmem
    exact ⟨c, by rw [usageAt_eq h, hc, hpeak]⟩

/-- At the last change nothing is left in use. -/
theorem bytes_of_getLast? {timeline : Timeline} {last : Sample}
    (h : timeline.samples = (changes m.lifetimes).map fun t => ⟨t, m.liveBytes t⟩)
    (hlast : timeline.samples.getLast? = some last) : last.bytes = 0 := by
  rw [h, List.getLast?_map] at hlast
  obtain ⟨c, hc, rfl⟩ := Option.map_eq_some_iff.1 hlast
  have hlive : m.liveAt c = [] := liveAt_of_forall_le (le_of_getLast? (ascending_pairwise _) hc)
  simp [liveBytes, hlive]

/-- **The timeline shows the traffic that was recorded.**  If no tensor is written backwards and the sizes
add up to a counter, a timeline is built, and at each tick it shows the tensors in memory: those of which
the write has begun, while it or a read has still to end.  They are listed by name, the use is the sum of
their sizes, and its greatest value is the peak.  The samples are in the order of their ticks, and at the
last one nothing is left in use. -/
theorem timeline_shows_traffic (forward : m.Forward) (small : m.sizes.values.sum < Counter.limit) :
    ∃ timeline, m.buildTimeline = .ok { m with timeline } ∧
      (∀ t, (timeline.liveAt t).Pairwise (· < ·) ∧
        (∀ name, name ∈ timeline.liveAt t ↔ ∃ w, m.writes.find? name = some w ∧ w.start ≤ t ∧
          (t < w.finish ∨ ∃ r ∈ m.readsOf name, t < r.finish)) ∧
        timeline.usageAt t = ((timeline.liveAt t).map m.sizeOf).sum) ∧
      (timeline.samples.map Sample.tick).Pairwise (· < ·) ∧
      (∀ last, timeline.samples.getLast? = some last → last.bytes = 0) ∧
      IsGreatest (Set.range timeline.usageAt) timeline.peak := by
  have hbuilt := timelineOf_of_fits forward (fits_of_sum_lt small)
  refine ⟨_, by rw [buildTimeline, hbuilt]; rfl, fun t => ?_, ?_, fun last => bytes_of_getLast? rfl,
    isGreatest_peak rfl⟩
  · rw [liveAt_foldl_lifetimes rfl]
    exact ⟨pairwise_liveAt, fun name => mem_liveAt, usageAt_eq rfl t⟩
  · exact List.pairwise_map.2 (pairwise_of_timelineOf hbuilt)

/-- Traffic of three nodes.  The first reads a tensor that was there before and writes one that the others
read; it also writes one that no node reads, in no time. -/
def threeNodes : Tracker :=
  let start : Tracker := { sysId := 0 }
  let first := (((start.enter ⟨"weights", 40⟩ .assumed).addRead "weights" ⟨0, 3, some 1⟩).enter
    ⟨"out", 5⟩ ⟨0, 3, some 1⟩).enter ⟨"lost", 7⟩ ⟨3, 3, some 1⟩
  (first.addRead "out" ⟨3, 8, some 2⟩).addRead "out" ⟨3, 6, some 3⟩

/-- Both answers about a tick agree: at tick 2 two tensors are in memory, at tick 3 only one of them. -/
theorem threeNodes_shown : threeNodes.Forward ∧ threeNodes.sizes.values.sum < Counter.limit ∧
    ∃ timeline, threeNodes.buildTimeline = .ok { threeNodes with timeline } ∧
      "out" ∈ timeline.liveAt 7 ∧ "lost" ∉ timeline.liveAt 3 ∧
      timeline.usageAt 2 = ((timeline.liveAt 2).map threeNodes.sizeOf).sum ∧
      IsGreatest (Set.range timeline.usageAt) timeline.peak := by
  have forward : threeNodes.Forward := by
    refine InTime.forward (t := 8) ?_
    have hstart : ({ sysId := 0 } : Tracker).InTime 8 := .initial 0 8
    exact (((((hstart.enter _ (by decide)).addRead _ (by decide)).enter _ (by decide)).enter _
      (by decide)).addRead _ (by decide)).addRead _ (by decide)
  have small : threeNodes.sizes.values.sum < Counter.limit := by decide +kernel
  obtain ⟨timeline, built, shown, -, -, peak⟩ := timeline_shows_traffic forward small
  refine ⟨forward, small, timeline, built, ?_, fun hlost => ?_, (shown 2).2.2, peak⟩
  · exact ((shown 7).2.1 "out").2 ⟨⟨0, 3, some 1⟩, by decide +kernel, by decide,
      .inr ⟨⟨3, 8, some 2⟩, by decide +kernel, by decide⟩⟩
  · obtain ⟨w, hw, -, hlater⟩ := ((shown 3).2.1 "lost").1 hlost
    have hwrite : threeNodes.writes.find? "lost" = some ⟨3, 3, some 1⟩ := by decide +kernel
    have hunread : threeNodes.readsOf "lost" = [] := by decide +kernel
    cases hw.symm.trans hwrite
    simp [hunread] at hlater

end Tracker

end TraceReplay
