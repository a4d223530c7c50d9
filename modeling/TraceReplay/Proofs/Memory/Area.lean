/-
**The area under the timeline.**

The mean use of memory is the area under the timeline, divided by the time between its first and its last
sample.  The area is added up sample by sample; here it is shown to be what it would be if it were added up
tensor by tensor.  The proof goes over the changes from the last to the first: what is under the timeline
from a change on is what the tensors still have to stay from then on, each with its size.

Main definitions:

* `Timeline.area` — bytes times ticks, over all windows;
* `Tracker.stays` — what is left of the lifetimes of all tensors from a tick on.

Main results:

* `Tracker.stays_step` — between two changes the bytes in memory pay for what the tensors stay less;
* `Tracker.area_eq_stays` — the area from a change on is what the tensors stay from then on;
* `Tracker.area_conserved` — **the area is the sum of the lifetimes**, weighted with the sizes.
-/

import Mathlib.Algebra.BigOperators.Ring.Finset
import Mathlib.Algebra.BigOperators.Ring.List
import TraceReplay.Proofs.Memory.Usage

set_option relaxedAutoImplicit false
set_option autoImplicit false

namespace TraceReplay

/-- Bytes times ticks, added up over the windows of a timeline. -/
def Timeline.area (samples : List Sample) : Int :=
  ((windows samples).map fun w => (w.1.bytes : Int) * ((w.2.tick : Int) - w.1.tick)).sum

namespace Tracker

variable {m : Tracker} {t t' : Tick}

/-- What is left of the lifetimes of all tensors from a tick on, in bytes times ticks. -/
def stays (m : Tracker) (t : Tick) : Nat :=
  (m.lifetimes.map fun l => m.sizeOf l.1 * (l.2.free - max l.2.alloc t)).sum

/-- What is left of one lifetime becomes less by the window if it covers its start, and stays as it is if
not, for a tensor comes or goes only at a change. -/
theorem stay_step {l : Lifetime} (size : Nat) (hlt : t < t') (halloc : t < l.alloc → t' ≤ l.alloc)
    (hfree : t < l.free → t' ≤ l.free) :
    (if l.covers t = true then size else 0) * (t' - t) + size * (l.free - max l.alloc t') =
      size * (l.free - max l.alloc t) := by
  by_cases hcovers : l.covers t = true
  · obtain ⟨hcame, hgoes⟩ := Lifetime.covers_iff.1 hcovers
    rw [if_pos hcovers, Nat.max_eq_right hcame, Nat.max_eq_right (Nat.le_trans hcame hlt.le), ← Nat.mul_add,
      Nat.add_comm, Nat.sub_add_sub_cancel (hfree hgoes) hlt.le]
  · rw [if_neg hcovers, Nat.zero_mul, Nat.zero_add]
    rw [Lifetime.covers_iff, not_and, Nat.not_lt] at hcovers
    rcases Nat.lt_or_ge t l.alloc with hcomes | hcame
    · rw [Nat.max_eq_left hcomes.le, Nat.max_eq_left (halloc hcomes)]
    · have hgone (t : Tick) (hle : l.free ≤ t) : l.free - max l.alloc t = 0 :=
        Nat.sub_eq_zero_of_le (Nat.le_trans hle (Nat.le_max_right _ _))
      rw [hgone t (hcovers hcame), hgone t' (Nat.le_trans (hcovers hcame) hlt.le)]

/-- **Between two changes the bytes in memory pay for what the tensors stay less.** -/
theorem stays_step (hlt : t < t') (hnext : ∀ c ∈ changes m.lifetimes, t < c → t' ≤ c) :
    m.liveBytes t * (t' - t) + m.stays t' = m.stays t := by
  rw [liveBytes_eq, stays, stays, ← List.sum_map_mul_right, ← List.sum_map_add]
  refine congrArg List.sum (List.map_congr_left fun l hl => ?_)
  exact stay_step (m.sizeOf l.1) hlt (hnext l.2.alloc (mem_changes.2 ⟨l, hl, .inl rfl⟩))
    (hnext l.2.free (mem_changes.2 ⟨l, hl, .inr rfl⟩))

/-- From the last change on no tensor stays. -/
theorem stays_of_forall_le (hlast : ∀ c ∈ changes m.lifetimes, c ≤ t) : m.stays t = 0 := by
  refine List.sum_eq_zero fun n hn => ?_
  obtain ⟨l, hl, rfl⟩ := List.mem_map.1 hn
  have hfree := hlast l.2.free (mem_changes.2 ⟨l, hl, .inr rfl⟩)
  rw [Nat.sub_eq_zero_of_le (Nat.le_trans hfree (Nat.le_max_right _ _)), Nat.mul_zero]

/-- Before the first change all lifetimes are still to come. -/
theorem stays_of_le_forall (hfirst : ∀ c ∈ changes m.lifetimes, t ≤ c) :
    m.stays t = (m.lifetimes.map fun l => m.sizeOf l.1 * (l.2.free - l.2.alloc)).sum := by
  refine congrArg List.sum (List.map_congr_left fun l hl => ?_)
  rw [Nat.max_eq_left (hfirst l.2.alloc (mem_changes.2 ⟨l, hl, .inl rfl⟩))]

/-- **The area from a change on is what the tensors stay from then on**, where `ts` are the later changes. -/
theorem area_eq_stays : ∀ {ts : List Tick} {t : Tick}, (t :: ts).Pairwise (· < ·) →
    (∀ c ∈ changes m.lifetimes, t < c → c ∈ ts) →
      Timeline.area ((t :: ts).map fun t => ⟨t, m.liveBytes t⟩) = m.stays t := by
  intro ts
  induction ts with
  | nil =>
      intro t _ hlater
      rw [stays_of_forall_le fun c hc => Nat.not_lt.1 fun hlt => List.not_mem_nil (hlater c hc hlt)]
      rfl
  | cons t' ts ih =>
      intro t hsorted hlater
      obtain ⟨hfirst, hrest⟩ := List.pairwise_cons.1 hsorted
      have hlt : t < t' := hfirst t' List.mem_cons_self
      have hnext : ∀ c ∈ changes m.lifetimes, t < c → t' ≤ c := fun c hc hltc => by
        rcases List.mem_cons.1 (hlater c hc hltc) with rfl | hmem
        · exact Nat.le_refl _
        · exact ((List.pairwise_cons.1 hrest).1 c hmem).le
      have hrestLater : ∀ c ∈ changes m.lifetimes, t' < c → c ∈ ts := fun c hc hltc =>
        (List.mem_cons.1 (hlater c hc (Nat.lt_trans hlt hltc))).resolve_left (Nat.ne_of_gt hltc)
      calc Timeline.area ((t :: t' :: ts).map fun t => ⟨t, m.liveBytes t⟩)
        _ = (m.liveBytes t : Int) * ((t' : Int) - t) + m.stays t' := by
            rw [← ih hrest hrestLater]
            rfl
        _ = (m.liveBytes t * (t' - t) + m.stays t' : Nat) := by
            rw [Nat.cast_add, Nat.cast_mul, Nat.cast_sub hlt.le]
        _ = m.stays t := by rw [stays_step hlt hnext]

/-- The area under the whole timeline is what all tensors stay. -/
theorem area_changes (m : Tracker) :
    Timeline.area ((changes m.lifetimes).map fun t => ⟨t, m.liveBytes t⟩) =
      ((m.lifetimes.map fun l => m.sizeOf l.1 * (l.2.free - l.2.alloc)).sum : Nat) := by
  cases hchanges : changes m.lifetimes with
  | nil =>
      -- without changes there are no tensors
      have hnone : m.lifetimes = [] := List.eq_nil_iff_forall_not_mem.2 fun l hl => by
        have hmem := mem_changes.2 ⟨l, hl, .inl rfl⟩
        rw [hchanges] at hmem
        cases hmem
      rw [hnone]
      rfl
  | cons t ts =>
      have hsorted : (t :: ts).Pairwise (· < ·) := hchanges ▸ ascending_pairwise _
      rw [area_eq_stays hsorted, stays_of_le_forall]
      · rw [hchanges]
        intro c hc
        rcases List.mem_cons.1 hc with rfl | hc
        · exact Nat.le_refl _
        · exact ((List.pairwise_cons.1 hsorted).1 c hc).le
      · rw [hchanges]
        exact fun c hc hlt => (List.mem_cons.1 hc).resolve_left (Nat.ne_of_gt hlt)

/-- **The area under the timeline is conserved.**  If no tensor is written backwards and the sizes add up to
a counter, a timeline is built with its samples in the order of their ticks.  The sum of which its mean is
taken goes over the windows, and without rounding the bytes of all windows, times their lengths, come to the
sizes of all tensors, times their lifetimes.  The mean is the sum divided by the time between the first and
the last sample.  Without time between them it is the use at the last one, and without samples zero. -/
theorem area_conserved (forward : m.Forward) (small : m.sizes.values.sum < Counter.limit) :
    ∃ timeline, m.buildTimeline = .ok { m with timeline } ∧
      (timeline.samples.map Sample.tick).Pairwise (· < ·) ∧
      Timeline.weighted 0 timeline.samples = .ok ((Timeline.windows timeline.samples).foldl
        (fun sum w => sum + Binary64.ofCounter w.1.bytes * Binary64.ofCounter (w.2.tick - w.1.tick)) 0) ∧
      Timeline.area timeline.samples = (m.writes.toList.map fun w => (m.sizeOf w.1 : Int) *
        (((m.lifetimeOf w.1 w.2).free : Int) - (m.lifetimeOf w.1 w.2).alloc)).sum ∧
      (∀ first ∈ timeline.samples.head?, ∀ last ∈ timeline.samples.getLast?, timeline.average =
        if last.tick = first.tick then .ok (Binary64.ofCounter last.bytes)
        else (Timeline.weighted 0 timeline.samples).map
          (· / Binary64.ofCounter (last.tick - first.tick))) ∧
      (timeline.samples = [] → timeline.average = .ok 0) := by
  have hbuilt := timelineOf_of_fits forward (fits_of_sum_lt small)
  have hsorted := pairwise_of_timelineOf hbuilt
  refine ⟨_, by rw [buildTimeline, hbuilt]; rfl, List.pairwise_map.2 hsorted,
    Timeline.weighted_eq 0 hsorted, ?_, fun _ hfirst _ hlast =>
      Timeline.average_eq hsorted hfirst hlast, Timeline.average_of_eq_nil⟩
  refine (area_changes m).trans ?_
  have hlifetime : ∀ w ∈ m.writes.toList, (m.lifetimeOf w.1 w.2).alloc ≤ (m.lifetimeOf w.1 w.2).free :=
    fun w hw => forward.alloc_le_free _ (List.mem_map_of_mem hw)
  rw [lifetimes, List.map_map, Nat.cast_list_sum, List.map_map]
  refine congrArg List.sum (List.map_congr_left fun w hw => ?_)
  simp only [Function.comp_apply, Nat.cast_mul, Nat.cast_sub (hlifetime w hw)]

/-- One tensor is read while another one is written, which is read later; a third one comes and goes at a
tick at which nothing else happens. -/
def handover : Tracker :=
  let start : Tracker := { sysId := 0 }
  let written := (start.enter ⟨"a", 100⟩ ⟨0, 0, some 1⟩).enter ⟨"lost", 7⟩ ⟨3, 3, some 1⟩
  ((written.addRead "a" ⟨5, 10, some 2⟩).enter ⟨"b", 50⟩ ⟨5, 10, some 2⟩).addRead "b" ⟨10, 20, some 3⟩

/-- The first tensor stays for 10 ticks and the second one for 15, and the mean is taken over 20. -/
theorem area_conserved_handover : handover.Forward ∧ handover.sizes.values.sum < Counter.limit ∧
    ∃ timeline, handover.buildTimeline = .ok { handover with timeline } ∧
      Timeline.area timeline.samples = 100 * 10 + 50 * 15 ∧
      timeline.average = (Timeline.weighted 0 timeline.samples).map (· / Binary64.ofCounter 20) := by
  have forward : handover.Forward := by
    refine InTime.forward (t := 20) ?_
    have hstart : ({ sysId := 0 } : Tracker).InTime 20 := .initial 0 20
    exact ((((hstart.enter _ (by decide)).enter _ (by decide)).addRead _ (by decide)).enter _
      (by decide)).addRead _ (by decide)
  have small : handover.sizes.values.sum < Counter.limit := by decide +kernel
  have hends : (handover.buildTimeline.map fun m => (m.timeline.samples.head?.map Sample.tick,
      m.timeline.samples.getLast?.map Sample.tick)) = .ok (some 0, some 20) := by decide +kernel
  obtain ⟨timeline, built, -, -, area, mean, -⟩ := area_conserved forward small
  rw [built] at hends
  obtain ⟨hfirst, hlast⟩ := Prod.mk.inj (Except.ok.inj hends)
  obtain ⟨first, hfirst, htick⟩ := Option.map_eq_some_iff.1 hfirst
  obtain ⟨last, hlast, htick'⟩ := Option.map_eq_some_iff.1 hlast
  refine ⟨forward, small, timeline, built, area.trans (by decide +kernel), ?_⟩
  rw [mean first hfirst last hlast, htick, htick']
  exact if_neg (by decide)

end Tracker

end TraceReplay
