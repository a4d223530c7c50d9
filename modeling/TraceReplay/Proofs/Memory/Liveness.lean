/-
**The timeline shows the tensors in memory.**

The timeline is made by a sweep over the ticks at which tensors come and go.  The sweep keeps the
tensors in memory from one tick to the next and never looks back.  Here it is shown that at each of its
ticks it has exactly those whose lifetime covers the tick, as long as no tensor is written over an
interval that ends before it starts.  Their bytes are added up, and that is all that can go wrong: the
timeline is built unless at some tick more bytes are in memory than a counter counts.

Main definitions:

* `Tracker.Forward` — no tensor is written backwards;
* `Tracker.liveAt`, `Tracker.liveBytes` — the tensors in memory at a tick, and their bytes;
* `Tracker.Fits` — at no tick the bytes in memory leave the range of counters.

Main results:

* `Tracker.sweep_eq` — a sweep takes its samples of the tensors in memory;
* `Tracker.exists_change` — the bytes in memory are greatest after some change;
* `Tracker.timelineOf_of_fits`, `Tracker.timelineOf_of_not_fits` — **the timeline is built exactly if
  the bytes in memory fit**.
-/

import Mathlib.Algebra.Order.BigOperators.Group.List
import Mathlib.Algebra.Order.Group.Nat
import Mathlib.Data.List.Nodup
import TraceReplay.Proofs.Memory.Traffic

set_option relaxedAutoImplicit false
set_option autoImplicit false

namespace TraceReplay

theorem Lifetime.covers_iff {l : Lifetime} {t : Tick} :
    l.covers t = true ↔ l.alloc ≤ t ∧ t < l.free := by
  simp [covers]

namespace Tracker

variable {m : Tracker} {t : Tick}

/-! ### Lifetimes -/

/-- No tensor is written over an interval that ends before it starts. -/
def Forward (m : Tracker) : Prop :=
  ∀ name w, m.writes.find? name = some w → w.start ≤ w.finish

theorem InTime.forward (h : m.InTime t) : m.Forward := fun name w hw => (h.writes name w hw).1

/-- Then no tensor leaves before it comes. -/
theorem Forward.alloc_le_free (h : m.Forward) : ∀ l ∈ m.lifetimes, l.2.alloc ≤ l.2.free := by
  intro l hl
  obtain ⟨⟨name, w⟩, hw, rfl⟩ := List.mem_map.1 hl
  exact Nat.le_trans (h name w ((SortedMap.mem_toList_iff _ _ _).1 hw))
    (Counter.foldl_max_le_iff.1 (Nat.le_refl _)).1

/-- Each tensor has one lifetime. -/
theorem nodup_lifetimes (m : Tracker) : (m.lifetimes.map Prod.fst).Nodup := by
  have hnames : m.lifetimes.map Prod.fst = m.writes.keys := by
    rw [lifetimes, List.map_map]
    rfl
  rw [hnames]
  refine m.writes.keys_pairwise.imp fun {a b} hlt heq => ?_
  rw [heq] at hlt
  exact Key.lt_irrefl b hlt

theorem mem_changes {ls : List (String × Lifetime)} :
    t ∈ changes ls ↔ ∃ l ∈ ls, l.2.alloc = t ∨ l.2.free = t := by
  simp only [changes, mem_ascending, List.mem_append, List.mem_map]
  grind

/-! ### The tensors in memory -/

/-- The names of the tensors whose lifetime covers a tick. -/
def covering (ls : List (String × Lifetime)) (t : Tick) : List String :=
  (ls.filter fun l => l.2.covers t).map Prod.fst

/-- The tensors in memory at a tick, in the order of their names. -/
def liveAt (m : Tracker) (t : Tick) : List String := covering m.lifetimes t

/-- The size of a tensor; one that is not known has none. -/
def sizeOf (m : Tracker) (name : String) : Nat := (m.sizes.find? name).getD 0

/-- The bytes of the tensors in memory at a tick. -/
def liveBytes (m : Tracker) (t : Tick) : Nat := ((m.liveAt t).map m.sizeOf).sum

/-- At no tick the bytes in memory leave the range of counters. -/
def Fits (m : Tracker) : Prop := ∀ t, m.liveBytes t < Counter.limit

theorem mem_covering {ls : List (String × Lifetime)} (hnames : (ls.map Prod.fst).Nodup)
    {l : String × Lifetime} (hl : l ∈ ls) :
    l.1 ∈ covering ls t ↔ l.2.alloc ≤ t ∧ t < l.2.free := by
  rw [covering, List.mem_map, ← Lifetime.covers_iff]
  constructor
  · rintro ⟨l', hl', hname⟩
    obtain ⟨hmem, hcovers⟩ := List.mem_filter.1 hl'
    rwa [List.inj_on_of_nodup_map hnames hmem hl hname] at hcovers
  · exact fun hcovers => ⟨l, List.mem_filter.2 ⟨hl, hcovers⟩, rfl⟩

/-- Every tensor counts with its size while it is in memory. -/
theorem liveBytes_eq (m : Tracker) (t : Tick) :
    m.liveBytes t = (m.lifetimes.map fun l => if l.2.covers t = true then m.sizeOf l.1 else 0).sum := by
  rw [liveBytes, liveAt, covering, List.map_map, List.sum_map_ite]
  simp [Function.comp_def]

theorem bytesOf_liveAt (m : Tracker) (t : Tick) :
    m.bytesOf (m.liveAt t) =
      if m.liveBytes t < Counter.limit then .ok (m.liveBytes t) else .error .sumTooLarge :=
  Counter.sum_eq _

/-! ### Sweeping -/

/-- **A sweep takes its samples of the tensors in memory.**  It starts with those that came before a
tick `b` and leave no earlier, and goes over all changes from `b` on. -/
theorem sweep_eq {ls : List (String × Lifetime)} (hnames : (ls.map Prod.fst).Nodup)
    (hforward : ∀ l ∈ ls, l.2.alloc ≤ l.2.free) : ∀ {ts : List Tick} {b : Tick} {live : List String},
    (∀ l ∈ ls, l.1 ∈ live ↔ l.2.alloc < b ∧ b ≤ l.2.free) → ts.Pairwise (· < ·) →
    (∀ t ∈ ts, b ≤ t) → (∀ l ∈ ls, (b ≤ l.2.alloc → l.2.alloc ∈ ts) ∧ (b ≤ l.2.free → l.2.free ∈ ts)) →
      m.sweep ls live ts = ts.mapM fun t => do return ⟨t, ← m.bytesOf (covering ls t)⟩ := by
  intro ts
  induction ts with
  | nil => exact fun _ _ _ _ => rfl
  | cons t ts ih =>
      intro b live hlive hsorted hfrom hchanges
      obtain ⟨hfirst, hrest⟩ := List.pairwise_cons.1 hsorted
      have hb : b ≤ t := hfrom t List.mem_cons_self
      -- nothing comes or goes between `b` and `t`, and the changes after `t` are still to come
      have hnext {c : Tick} (hc : c ∈ t :: ts) : t ≤ c := by
        rcases List.mem_cons.1 hc with rfl | hc
        · exact Nat.le_refl _
        · exact Nat.le_of_lt (hfirst c hc)
      have hlater {c : Tick} (hc : b ≤ c → c ∈ t :: ts) (hlt : t + 1 ≤ c) : c ∈ ts :=
        (List.mem_cons.1 (hc (Nat.le_trans hb (Nat.le_of_succ_le hlt)))).resolve_left
          (Nat.ne_of_gt hlt)
      have hadvance : advance ls live t = covering ls t := by
        refine congrArg (List.map Prod.fst) (List.filter_congr fun l hl => ?_)
        have halloc := fun h => hnext ((hchanges l hl).1 h)
        have hfree := fun h => hnext ((hchanges l hl).2 h)
        have hle := hforward l hl
        rw [Bool.eq_iff_iff, Lifetime.covers_iff]
        simp only [Bool.and_eq_true, Bool.or_eq_true, decide_eq_true_eq, List.contains_iff_mem,
          hlive l hl]
        grind
      have hsweep : m.sweep ls (covering ls t) ts =
          ts.mapM fun t => do return ⟨t, ← m.bytesOf (covering ls t)⟩ := by
        refine ih (b := t + 1) (fun l hl => ?_) hrest hfirst fun l hl =>
          ⟨hlater (hchanges l hl).1, hlater (hchanges l hl).2⟩
        rw [mem_covering hnames hl, Nat.lt_succ_iff, Nat.succ_le_iff]
      rw [sweep, List.mapM_cons, hadvance, hsweep]
      simp only [bind_assoc, pure_bind]

/-- The samples of a timeline are taken of the tensors in memory at the changes. -/
theorem sweep_changes (h : m.Forward) : m.sweep m.lifetimes [] (changes m.lifetimes) =
    (changes m.lifetimes).mapM fun t => do return ⟨t, ← m.bytesOf (m.liveAt t)⟩ := by
  refine sweep_eq m.nodup_lifetimes h.alloc_le_free (b := 0) (fun l _ => ?_) (ascending_pairwise _)
    (fun t _ => Nat.zero_le t) fun l hl => ⟨fun _ => ?_, fun _ => ?_⟩
  · simp
  · exact mem_changes.2 ⟨l, hl, .inl rfl⟩
  · exact mem_changes.2 ⟨l, hl, .inr rfl⟩

/-! ### The greatest use -/

/-- **The bytes in memory are greatest after some change**: when the last of the tensors in memory came,
the others were there already. -/
theorem exists_change (hpos : 0 < m.liveBytes t) :
    ∃ t' ∈ changes m.lifetimes, m.liveBytes t ≤ m.liveBytes t' := by
  have hne : ((m.lifetimes.filter fun l => l.2.covers t).map (·.2.alloc)) ≠ [] := by
    intro hnil
    rw [liveBytes, liveAt, covering, List.map_eq_nil_iff.1 hnil] at hpos
    exact absurd hpos (Nat.lt_irrefl 0)
  obtain ⟨last, hlast⟩ := Option.isSome_iff_exists.1 (List.isSome_max?_of_ne_nil hne)
  obtain ⟨hmem, hgreatest⟩ := List.max?_eq_some_iff.1 hlast
  obtain ⟨l, hl, rfl⟩ := List.mem_map.1 hmem
  obtain ⟨hl, hcovers⟩ := List.mem_filter.1 hl
  refine ⟨l.2.alloc, mem_changes.2 ⟨l, hl, .inl rfl⟩, ?_⟩
  rw [liveBytes_eq, liveBytes_eq]
  refine List.sum_le_sum fun l' hl' => ?_
  by_cases hcovers' : l'.2.covers t = true
  · have hearlier := hgreatest _ (List.mem_map_of_mem (f := fun l : String × Lifetime => l.2.alloc)
      (List.mem_filter.2 ⟨hl', hcovers'⟩))
    rw [Lifetime.covers_iff] at hcovers
    have hstill : l'.2.covers l.2.alloc = true :=
      Lifetime.covers_iff.2 ⟨hearlier, Nat.lt_of_le_of_lt hcovers.1 (Lifetime.covers_iff.1 hcovers').2⟩
    rw [if_pos hcovers', if_pos hstill]
  · rw [if_neg hcovers']
    exact Nat.zero_le _

/-- So the bytes fit if they do after all changes. -/
theorem fits_iff : m.Fits ↔ ∀ t ∈ changes m.lifetimes, m.liveBytes t < Counter.limit := by
  refine ⟨fun h t _ => h t, fun h t => ?_⟩
  rcases Nat.eq_zero_or_pos (m.liveBytes t) with hzero | hpos
  · rw [hzero]
    decide
  · obtain ⟨t', ht', hle⟩ := exists_change hpos
    exact Nat.lt_of_le_of_lt hle (h t' ht')

/-! ### Timelines -/

/-- **If the bytes in memory fit the timeline is built**, with the bytes in memory after each change. -/
theorem timelineOf_of_fits (h : m.Forward) (hfits : m.Fits) : m.timelineOf = .ok {
    samples := (changes m.lifetimes).map fun t => ⟨t, m.liveBytes t⟩
    lifetimes := m.lifetimes.foldl (fun ls l => ls.insert l.1 l.2) ∅ } := by
  have hsamples : m.sweep m.lifetimes [] (changes m.lifetimes) =
      .ok ((changes m.lifetimes).map fun t => ⟨t, m.liveBytes t⟩) := by
    rw [sweep_changes h]
    refine Except.mapM_eq_ok fun t _ => ?_
    rw [bytesOf_liveAt, if_pos (hfits t)]
    rfl
  rw [timelineOf, hsamples]
  rfl

/-- **If they do not fit, their sum is too large.** -/
theorem timelineOf_of_not_fits (h : m.Forward) (hfits : ¬m.Fits) :
    m.timelineOf = .error .sumTooLarge := by
  have hsamples : m.sweep m.lifetimes [] (changes m.lifetimes) = .error .sumTooLarge := by
    rw [sweep_changes h]
    refine Except.mapM_eq_error (fun t _ => ?_) ?_
    · rw [bytesOf_liveAt]
      split
      · exact .inl ⟨_, rfl⟩
      · exact .inr rfl
    · obtain ⟨t, ht, hbig⟩ : ∃ t ∈ changes m.lifetimes, ¬m.liveBytes t < Counter.limit := by
        simpa [fits_iff] using hfits
      refine ⟨t, ht, ?_⟩
      rw [bytesOf_liveAt, if_neg hbig]
      rfl
  rw [timelineOf, hsamples]
  rfl

/-- The lifetimes in a timeline are those of the tensors. -/
theorem lifetime?_of_timelineOf {timeline : Timeline} (h : m.timelineOf = .ok timeline) {name : String}
    {w : Activity} (hw : m.writes.find? name = some w) :
    timeline.lifetime? name = some (m.lifetimeOf name w) := by
  rw [timelineOf] at h
  cases hsweep : m.sweep m.lifetimes [] (changes m.lifetimes) with
  | error f =>
      rw [hsweep] at h
      cases h
  | ok samples =>
      rw [hsweep] at h
      cases h
      refine (SortedMap.find?_foldl_insert m.nodup_lifetimes).2 (.inl ?_)
      exact List.mem_map.2 ⟨(name, w), (SortedMap.mem_toList_iff _ _ _).2 hw, rfl⟩

end Tracker

namespace Statistics

variable {m : Tracker}

/-- If the bytes in memory fit there is a report on the use of memory. -/
theorem buildTimeline_of_fits (h : m.Forward) (hfits : m.Fits) :
    ∃ timeline memory, buildTimeline m = .ok ({ m with timeline }, memory) := by
  obtain ⟨timeline, htimeline⟩ : ∃ timeline, m.timelineOf = .ok timeline :=
    ⟨_, Tracker.timelineOf_of_fits h hfits⟩
  obtain ⟨mean, hmean⟩ := Timeline.exists_average (Tracker.pairwise_of_timelineOf htimeline)
  have hreport : MemoryReport.ofTimeline timeline = .ok ⟨timeline, timeline.peak, mean⟩ := by
    rw [MemoryReport.ofTimeline, hmean]
    rfl
  refine ⟨timeline, ⟨timeline, timeline.peak, mean⟩, ?_⟩
  rw [buildTimeline, Tracker.buildTimeline, htimeline]
  show (MemoryReport.ofTimeline timeline >>= fun memory => pure ({ m with timeline }, memory)) = _
  rw [hreport]
  rfl

theorem buildTimeline_of_not_fits (h : m.Forward) (hfits : ¬m.Fits) :
    buildTimeline m = .error .sumTooLarge := by
  rw [buildTimeline, Tracker.buildTimeline, Tracker.timelineOf_of_not_fits h hfits]
  rfl

end Statistics

end TraceReplay
