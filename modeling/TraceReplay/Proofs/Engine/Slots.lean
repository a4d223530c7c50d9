/-
**Who holds a slot.**

The pool only keeps one number for each resource.  `Slots` says what it counts: the nodes in flight
whose class uses the resource, and those that ended and have not given their slot back yet.  The class
travels with the context of a token or with the handles of a node and is the same at both ends, so
nothing is ever given back to another resource than it was taken from.

Main definitions:

* `resourceOf` — the resource that a node of the trace uses;
* `runningOn`, `heldOn` — how many nodes in flight use a resource, by their records and by what is
  remembered of them;
* `Slots` — the pool counts both.

Main results:

* `Slots.issue`, `Slots.close`, `Slots.free`, `Slots.skip` — requests and completions keep it;
* `Slots.holds` — a node that ended has a slot to give back.
-/

import TraceReplay.Proofs.Engine.Custody

set_option relaxedAutoImplicit false
set_option autoImplicit false

namespace TraceReplay

/-! ### The pool -/

namespace SlotPool

variable (p : SlotPool) (c : NodeClass) (r : Resource)

theorem taken_take : (p.take c).taken.get r =
    p.taken.get r + if Resource.ofClass? c = some r then 1 else 0 := by
  rw [take]
  split
  next hc => simp [hc]
  next r' hc =>
    rw [PerResource.get_set, hc]
    by_cases heq : r = r'
    · subst heq
      simp
    · simp [heq, Ne.symm heq]

theorem taken_giveBack : (p.giveBack c).taken.get r =
    p.taken.get r - if Resource.ofClass? c = some r then 1 else 0 := by
  rw [giveBack]
  split
  next hc => simp [hc]
  next r' hc =>
    rw [PerResource.get_set, hc]
    by_cases heq : r = r'
    · subst heq
      simp
    · simp [heq, Ne.symm heq]

@[simp] theorem capacity_take : (p.take c).capacity = p.capacity := by
  rw [take]
  split <;> rfl

@[simp] theorem capacity_giveBack : (p.giveBack c).capacity = p.capacity := by
  rw [giveBack]
  split <;> rfl

theorem hasRoom_iff : p.hasRoom c = true ↔
    ∀ r, Resource.ofClass? c = some r → p.taken.get r < p.capacity.get r := by
  rw [hasRoom]
  split
  next r hr => simp [hr]
  next hr => simp [hr]

theorem isIdle_iff : p.isIdle = true ↔ ∀ r, p.taken.get r = 0 := by
  rw [isIdle, PerResource.toList, List.all_map, List.all_eq_true]
  constructor
  · intro h r
    simpa using h r (by cases r <;> decide)
  · intro h r _
    simpa using h r

end SlotPool

/-! ### Nodes in flight by resource -/

/-- The resource that a node of the trace uses. -/
def resourceOf (g₀ : Graph) (id : NodeId) : Option Resource :=
  (g₀.lookup id).bind fun n => Resource.ofClass? n.nodeClass

/-- How many nodes whose record has no end use a resource. -/
def runningOn (g₀ : Graph) (records : SortedMap NodeId Record) (r : Resource) : Nat :=
  records.count fun id record => record.finish.isNone && resourceOf g₀ id = some r

/-- How many nodes with a token, or with handles, use a resource. -/
def heldOn (g₀ : Graph) (f : InFlight) (h : Gatherings) (r : Resource) : Nat :=
  (f.contexts.count fun _ context => resourceOf g₀ context.node = some r) +
    h.outstanding.count fun id _ => resourceOf g₀ id = some r

/-- The pool counts the nodes in flight, and those that ended and still hold their slot. -/
structure Slots (g₀ : Graph) (capacity : Capacity) (pool : SlotPool)
    (records : SortedMap NodeId Record) (f : InFlight) (h : Gatherings)
    (unfreed : List (NodeId × NodeClass)) : Prop where
  capacity_eq : pool.capacity = capacity
  /-- No more slots are taken than there are. -/
  bound : ∀ r, pool.taken.get r ≤ capacity.get r
  taken : ∀ r, pool.taken.get r =
    runningOn g₀ records r + unfreed.countP fun u => Resource.ofClass? u.2 = some r
  held : ∀ r, heldOn g₀ f h r = runningOn g₀ records r

namespace Slots

variable {g₀ : Graph} {capacity : Capacity} {pool : SlotPool} {records : SortedMap NodeId Record}
variable {f f' : InFlight} {h h' : Gatherings} {unfreed : List (NodeId × NodeClass)}
variable {id : NodeId} {n : Node} {record : Record}

theorem initial (g₀ : Graph) (capacity : Capacity) :
    Slots g₀ capacity (.ofCapacity capacity) ∅ {} {} [] := by
  refine ⟨rfl, fun r => ?_, fun r => ?_, fun r => rfl⟩
  · simp [SlotPool.ofCapacity]
  · simp [SlotPool.ofCapacity, runningOn]

/-- A node is issued: it takes its slot and is remembered. -/
theorem issue (hs : Slots g₀ capacity pool records f h unfreed) (hn : g₀.lookup id = some n)
    (room : pool.hasRoom n.nodeClass = true) (hnone : records.find? id = none)
    (hrunning : record.finish = none)
    (hheld : ∀ r, heldOn g₀ f' h' r = heldOn g₀ f h r + if resourceOf g₀ id = some r then 1 else 0) :
    Slots g₀ capacity (pool.take n.nodeClass) (records.insert id record) f' h' unfreed := by
  -- one node more is in flight, and it is remembered
  have hres : resourceOf g₀ id = Resource.ofClass? n.nodeClass := by simp [resourceOf, hn]
  have hcount (r : Resource) : runningOn g₀ (records.insert id record) r =
      runningOn g₀ records r + if resourceOf g₀ id = some r then 1 else 0 := by
    simp [runningOn, SortedMap.count_insert_of_none hnone, hrunning]
  refine ⟨(pool.capacity_take _).trans hs.capacity_eq, fun r => ?_, fun r => ?_, fun r => ?_⟩
  · have hbound := hs.bound r
    rw [SlotPool.taken_take]
    by_cases hr : Resource.ofClass? n.nodeClass = some r
    · have := (pool.hasRoom_iff _).1 room r hr
      rw [hs.capacity_eq] at this
      rw [if_pos hr]
      omega
    · rwa [if_neg hr]
  · rw [SlotPool.taken_take, hs.taken r, hcount, hres]
    omega
  · rw [hheld, hs.held r, hcount]

/-- A node in flight ends: it is remembered no longer and still holds its slot. -/
theorem close (hs : Slots g₀ capacity pool records f h unfreed) (hn : g₀.lookup id = some n)
    (hr : records.find? id = some record) (hrunning : record.finish = none) (tick : Tick)
    (hheld : ∀ r, heldOn g₀ f' h' r + (if resourceOf g₀ id = some r then 1 else 0) =
      heldOn g₀ f h r) :
    Slots g₀ capacity pool (records.insert id { record with finish := some tick }) f' h'
      ((id, n.nodeClass) :: unfreed) := by
  have hres : resourceOf g₀ id = Resource.ofClass? n.nodeClass := by simp [resourceOf, hn]
  have hcount (r : Resource) :
      runningOn g₀ (records.insert id { record with finish := some tick }) r +
        (if resourceOf g₀ id = some r then 1 else 0) = runningOn g₀ records r := by
    have := SortedMap.count_insert_of_some (v := { record with finish := some tick })
      (p := fun id record => record.finish.isNone && resourceOf g₀ id = some r) hr
    simpa [runningOn, hrunning] using this
  refine ⟨hs.capacity_eq, hs.bound, fun r => ?_, fun r => ?_⟩
  · have := hcount r
    rw [hs.taken r, ← this, List.countP_cons, hres]
    simp only [decide_eq_true_eq]
    omega
  · have := hheld r
    have := hcount r
    have := hs.held r
    omega

/-- A skipped node takes no slot. -/
theorem skip (hs : Slots g₀ capacity pool records f h unfreed) (hnone : records.find? id = none)
    (hended : record.finish.isSome = true) :
    Slots g₀ capacity pool (records.insert id record) f h unfreed := by
  have hcount (r : Resource) :
      runningOn g₀ (records.insert id record) r = runningOn g₀ records r := by
    simp [runningOn, SortedMap.count_insert_of_none hnone, Option.isNone_eq_false_iff.2 hended]
  exact ⟨hs.capacity_eq, hs.bound, fun r => by rw [hcount, hs.taken r],
    fun r => by rw [hcount, hs.held r]⟩

/-- A node that ended has a slot to give back. -/
theorem holds {c : NodeClass} (hs : Slots g₀ capacity pool records f h ((id, c) :: unfreed))
    {r : Resource} (hr : Resource.ofClass? c = some r) : pool.taken.get r ≠ 0 := by
  rw [hs.taken r, List.countP_cons_of_pos (by simp [hr])]
  omega

/-- A node that ended gives its slot back. -/
theorem free {c : NodeClass} (hs : Slots g₀ capacity pool records f h ((id, c) :: unfreed)) :
    Slots g₀ capacity (pool.giveBack c) records f h unfreed := by
  refine ⟨(pool.capacity_giveBack _).trans hs.capacity_eq, fun r => ?_, fun r => ?_, hs.held⟩
  · have := hs.bound r
    rw [SlotPool.taken_giveBack]
    omega
  · have := hs.taken r
    rw [List.countP_cons] at this
    simp only [decide_eq_true_eq] at this
    rw [SlotPool.taken_giveBack, this]
    omega

end Slots

end TraceReplay
