/-
**What is done for other nodes cannot be seen from a part.**

A part of a trace lives apart from the other nodes.  A moment of a run of the whole is compared with a
moment of a run of the part alone: they are alike if they agree on what concerns the nodes of the part.
Tokens, handles, the numbers of requests and the clock do not belong to that.  The clocks differ when the
last event of the whole was for another node; then the part has been left at an earlier tick, but has
nothing to issue before its next event either.

The relation is kept one move at a time.  What the whole does for another node leaves it like the moment
of the part; what it does for a node of the part is done by the part too.

Main definitions:

* `Alike` — a moment of the whole is like one of the part;
* `InStep` — moreover the clocks agree, or the part has nothing to issue.

Main results:

* `Alike.offer_other`, `Alike.retire_other` — what is done for other nodes is not seen;
* `Alike.offer_own`, `Alike.retire_own` — what is done for nodes of the part is done by the part too;
* `Alike.turn` — **after an event the whole is like the part, or the part has handled its next event**.
-/

import TraceReplay.Proofs.Apart
import TraceReplay.Proofs.Engine.Realization
import TraceReplay.Proofs.Hindsight
import TraceReplay.Proofs.Kernel.Agenda

set_option relaxedAutoImplicit false
set_option autoImplicit false

namespace TraceReplay

open Relation

/-! ### Telling children and blocked queues -/

section

variable {s : Setup} {m m' : Moment Analytical}

/-- The children for which a node was the last parent join the queue. -/
theorem Coherent.ready_of_freed (hc : Coherent s m) {ready : List NodeId} {id : NodeId} {g : Graph}
    (freed : { m.workload.graph with ready }.freeDependents id = .ok g) :
    id ∉ m.workload.graph.freed ∧ g.ready = ready ++ (s.graph.childrenOf id).filter fun c =>
      s.graph.awaited m.workload.graph.freed c = some 1 := by
  have hid : id ∉ m.workload.graph.freed := by
    intro hid
    rw [Graph.freeDependents, if_pos hid] at freed
    cases freed
  have hcounts : s.graph.Counts { m.workload.graph with ready } :=
    ⟨hc.lifecycle.counts.children, hc.lifecycle.counts.unresolved⟩
  obtain ⟨unresolved, hok, -⟩ := hcounts.freeDependents s.built hid
  cases freed.symm.trans hok
  exact ⟨hid, rfl⟩

/-- From a blocked queue nodes are only put aside. -/
theorem Offer.eq_of_blocked (hc : Coherent s m) (blocked : Blocked s m) (offer : Offer m m') :
    ∃ id rest, m.workload.graph.ready = id :: rest ∧
      m' = { m with workload := m.workload.withReady rest, aside := m.aside ++ [id] } := by
  have full {id : NodeId} {n : Node} {rest : List NodeId} (front : m.Front id n rest) :
      m.workload.pool.hasRoom n.nodeClass = false :=
    blocked id n (by rw [front.queue]; exact List.mem_cons_self) (hc.front front).1
  cases offer with
  | block front => exact ⟨_, _, front.queue, rfl⟩
  | skip front room | start front room | gather front room => cases (full front).symm.trans room

theorem Offer.eq_of_blocked_many (hc : Coherent s m) (blocked : Blocked s m)
    (offers : ReflTransGen Offer m m') : ∃ before rest, m.workload.graph.ready = before ++ rest ∧
      m' = { m with workload := m.workload.withReady rest, aside := m.aside ++ before } := by
  induction offers with
  | refl => exact ⟨[], _, rfl, by simp [Workload.withReady]⟩
  | @tail m₁ m₂ offers offer ih =>
      obtain ⟨before, rest, hready, rfl⟩ := ih
      obtain ⟨id, rest', hrest, rfl⟩ := offer.eq_of_blocked (hc.moves (Move.of_offers offers))
        fun id n hid => blocked id n (by rw [hready]; exact List.mem_append_right _ hid)
      replace hrest : rest = id :: rest' := hrest
      refine ⟨before ++ [id], rest', by rw [hready, hrest, List.append_assoc]; rfl, ?_⟩
      simp [Workload.withReady]

/-- **Draining a blocked queue changes nothing.** -/
theorem Drains.eq_of_blocked (hc : Coherent s m) (blocked : Blocked s m) (drains : Drains m m') :
    m' = m := by
  obtain ⟨m₁, held, offers, hready, haside, rfl⟩ := drains
  obtain ⟨before, rest, hsplit, rfl⟩ := Offer.eq_of_blocked_many hc blocked offers
  replace hready : rest = [] := hready
  rw [hready, List.append_nil] at hsplit
  rw [← List.append_cancel_left haside, ← hsplit]
  rfl

end

/-! ### Moments that are alike -/

/-- A moment of the whole is like one of a part: they agree on what concerns the nodes of the part, and no
node has ended without its children having been told. -/
structure Alike (part : Setup) (M m : Moment Analytical) : Prop where
  records : ∀ id, part.owns id = true →
    M.workload.statistics.records.find? id = m.workload.statistics.records.find? id
  ready : M.workload.graph.ready.filter part.owns = m.workload.graph.ready
  aside : M.aside.filter part.owns = m.aside
  unfreed : M.unfreed = [] ∧ m.unfreed = []
  lingering : M.lingering.filter part.owns = m.lingering
  agenda : M.agenda part.owns = m.agenda part.owns
  costs : M.kernel.config = m.kernel.config

/-- The clocks agree, or the part has nothing to issue. -/
def InStep (part : Setup) (M m : Moment Analytical) : Prop :=
  M.kernel.now = m.kernel.now ∨ Blocked part m

/-- At any moments of the two runs a node of the part has the same plan. -/
theorem Setup.Apart.planOf_withReady {part whole : Setup} {rest : List Node}
    (apart : part.Apart whole rest) {M m : Moment Analytical} (hM : Coherent whole M)
    (hm : Coherent part m) {id : NodeId} {n : Node} (hn : part.graph.lookup id = some n)
    (ready ready' : List NodeId) :
    (M.workload.withReady ready).planOf n = (m.workload.withReady ready').planOf n := by
  rw [hM.planOf_eq, hm.planOf_eq, apart.planOf_eq hn]

/-- A node that finds a slot is issued, so the part has something to issue and the clocks agree. -/
theorem InStep.now_eq {part : Setup} {M m : Moment Analytical} {id : NodeId} {n : Node}
    {ready : List NodeId} (step : InStep part M m) (hn : part.graph.lookup id = some n)
    (front : m.Front id n ready) (room : m.workload.pool.hasRoom n.nodeClass = true) :
    M.kernel.now = m.kernel.now := by
  refine step.resolve_right fun blocked => ?_
  have full := blocked id n (by rw [front.queue]; exact List.mem_cons_self) hn
  cases full.symm.trans room

namespace Alike

variable {part whole : Setup} {rest : List Node} {M M' m m' : Moment Analytical}
variable {id : NodeId} {n : Node}

/-- A node of the part gets the same record in both. -/
theorem records_insert (h : Alike part M m) {r r' : Record} (same : r = r') :
    ∀ id', part.owns id' = true → (M.workload.statistics.records.insert id r).find? id' =
      (m.workload.statistics.records.insert id r').find? id' := by
  intro id' hid'
  rw [SortedMap.find?_insert, SortedMap.find?_insert, same, h.records id' hid']

/-- The record of another node is not seen. -/
theorem records_insert_other (h : Alike part M m) (hid : part.owns id = false) (r : Record) :
    ∀ id', part.owns id' = true → (M.workload.statistics.records.insert id r).find? id' =
      m.workload.statistics.records.find? id' := by
  intro id' hid'
  rw [SortedMap.find?_insert_of_ne, h.records id' hid']
  rintro rfl
  cases hid.symm.trans hid'

section

variable (apart : part.Apart whole rest) (hM : Coherent whole M) (hm : Coherent part m)
variable (h : Alike part M m)

include hM hm h

theorem freed_iff (hid : part.owns id = true) :
    id ∈ M.workload.graph.freed ↔ id ∈ m.workload.graph.freed := by
  rw [hM.lifecycle.freed, hm.lifecycle.freed, h.unfreed.1, h.unfreed.2, Record.ended, Record.ended,
    h.records id hid]

include apart

/-- A node of the part is still there if it is in the part. -/
theorem lookup_eq (hid : part.owns id = true) :
    M.workload.graph.lookup id = m.workload.graph.lookup id := by
  have hlingering : id ∈ M.lingering ↔ id ∈ m.lingering := by
    rw [← h.lingering, List.mem_filter]
    exact (and_iff_left hid).symm
  rw [hM.lifecycle.present id, hm.lifecycle.present id, apart.lookup_eq hid]
  simp only [h.freed_iff hM hm hid, hlingering]

/-- A node of the part finds a slot if it does in the part. -/
theorem hasRoom_eq (hn : part.graph.lookup id = some n) :
    M.workload.pool.hasRoom n.nodeClass = m.workload.pool.hasRoom n.nodeClass := by
  have hmem := ((part.built.lookup_iff id n).1 hn).1
  rw [Bool.eq_iff_iff, SlotPool.hasRoom_iff, SlotPool.hasRoom_iff]
  refine forall₂_congr fun r hr => ?_
  rw [hM.slots.taken r, hm.slots.taken r, h.unfreed.1, h.unfreed.2, hM.slots.capacity_eq,
    hm.slots.capacity_eq, apart.config, apart.runningOn_eq h.records hmem hr]

/-- A node of the part at the front of the queue is at the front of the queue of the part. -/
theorem front {ready : List NodeId} (front : M.Front id n ready) (hid : part.owns id = true) :
    part.graph.lookup id = some n ∧ m.Front id n (ready.filter part.owns) := by
  refine ⟨by rw [← apart.lookup_eq hid, (hM.front front).1], ?_, ?_⟩
  · rw [← h.ready, front.queue, List.filter_cons_of_pos hid]
  · rw [← h.lookup_eq apart hM hm hid, front.found]

/-- The children of a node of the part are told in the part too, and the same of them join the queue. -/
theorem freeDependents (hid : part.owns id = true) {ready : List NodeId} {G : Graph}
    (freed : { M.workload.graph with ready }.freeDependents id = .ok G) :
    ∃ g, { m.workload.graph with ready := ready.filter part.owns }.freeDependents id = .ok g ∧
      G.ready.filter part.owns = g.ready := by
  obtain ⟨hnew, hG⟩ := hM.ready_of_freed freed
  rw [h.freed_iff hM hm hid] at hnew
  obtain ⟨g, hg⟩ := hm.lifecycle.freeable part.built hnew (ready.filter part.owns)
  refine ⟨g, hg, ?_⟩
  rw [hG, (hm.ready_of_freed hg).2, List.filter_append, List.filter_filter, apart.childrenOf_eq hid]
  -- all children are nodes of the part, and wait for as many parents in both
  congr 1
  refine List.filter_congr fun c hc => ?_
  rw [← apart.childrenOf_eq hid] at hc
  have hchild := (apart.owns_child hc).trans hid
  rw [hchild, Bool.true_and,
    apart.awaited_eq (fun p hp => h.freed_iff hM hm hp) hchild]

end

/-- The children of another node are other nodes. -/
theorem ready_of_freed_other (apart : part.Apart whole rest) (hM : Coherent whole M)
    (hid : part.owns id = false) {ready : List NodeId} {G : Graph}
    (freed : { M.workload.graph with ready }.freeDependents id = .ok G) :
    G.ready.filter part.owns = ready.filter part.owns := by
  have hnone : ((whole.graph.childrenOf id).filter fun c =>
      whole.graph.awaited M.workload.graph.freed c = some 1).filter part.owns = [] := by
    rw [List.filter_eq_nil_iff]
    intro c hc
    exact ne_true_of_eq_false ((apart.owns_child (List.mem_filter.1 hc).1).trans hid)
  rw [(hM.ready_of_freed freed).2, List.filter_append, hnone, List.append_nil]

/-! ### Drains -/

section

variable (apart : part.Apart whole rest) (hM : Orderly whole M) (h : Alike part M m)

include apart hM h

/-- **What is done with another node at the front of the queue is not seen.** -/
theorem offer_other {ready : List NodeId} (front : M.Front id n ready) (hid : part.owns id = false)
    (offer : Offer M M') : Alike part M' m := by
  have hother := ne_true_of_eq_false hid
  have hready : ready.filter part.owns = m.workload.graph.ready := by
    rw [← h.ready, front.queue, List.filter_cons_of_neg hother]
  cases offer with
  | block front' full =>
      obtain ⟨rfl, rfl, rfl⟩ := front.unique front'
      exact { h with
        ready := hready
        aside := by
          rw [List.filter_append, List.filter_cons_of_neg hother]
          exact (List.append_nil _).trans h.aside }
  | skip front' room skips freed =>
      obtain ⟨rfl, rfl, rfl⟩ := front.unique front'
      obtain ⟨-, hnid, -⟩ := hM.coherent.front front
      rw [← hnid] at hid
      exact { h with
        records := h.records_insert_other hid _
        ready := by
          rw [Graph.ready_remove, ready_of_freed_other apart hM.coherent hid freed]
          exact hready }
  | start front' room planned starts takes =>
      obtain ⟨rfl, rfl, rfl⟩ := front.unique front'
      obtain ⟨cost, -, rfl⟩ := Analytical.schedule_of_takes takes
      exact { h with
        records := h.records_insert_other hid _
        ready := hready
        agenda := Eq.trans (Moment.agenda_of_takes hM rfl rfl rfl) ((if_neg hother).trans h.agenda) }
  | gather front' room planned gathers gives registered =>
      obtain ⟨rfl, rfl, rfl⟩ := front.unique front'
      obtain ⟨rfl, cost, -, rfl⟩ := Analytical.schedule_of_gives gives
      exact { h with
        records := h.records_insert_other hid _
        ready := hready
        agenda := Eq.trans (Moment.agenda_of_gives hM rfl registered rfl rfl rfl rfl)
          ((if_neg hother).trans h.agenda) }

variable (hm : Orderly part m)

include hm

/-- **What is done with a node of the part at the front of the queue is done by the part too.** -/
theorem offer_own (step : InStep part M m) {ready : List NodeId} (front : M.Front id n ready)
    (hid : part.owns id = true) (offer : Offer M M') :
    ∃ m', Offer m m' ∧ Alike part M' m' ∧ InStep part M' m' := by
  obtain ⟨hn, front'⟩ := h.front apart hM.coherent hm.coherent front hid
  have hroom := h.hasRoom_eq apart hM.coherent hm.coherent hn
  have clock (room : M.workload.pool.hasRoom n.nodeClass = true) :
      Kernel.now M.kernel = Kernel.now m.kernel := step.now_eq hn front' (hroom.symm.trans room)
  have hplan := apart.planOf_withReady hM.coherent hm.coherent hn ready (ready.filter part.owns)
  cases offer with
  | block front₁ full =>
      obtain ⟨rfl, rfl, rfl⟩ := front.unique front₁
      refine ⟨_, .block front' (hroom.symm.trans full), { h with
        ready := rfl
        aside := ?_ }, step.imp_right fun blocked id' n' hid' => ?_⟩
      · rw [List.filter_append, List.filter_cons_of_pos hid, h.aside]
        rfl
      · exact blocked id' n' (by rw [front'.queue]; exact List.mem_cons_of_mem _ hid')
  | skip front₁ room skips freed =>
      obtain ⟨rfl, rfl, rfl⟩ := front.unique front₁
      obtain ⟨-, hnid, -⟩ := hM.coherent.front front
      rw [← hnid] at hid
      rw [hM.coherent.skips_iff, apart.skips_iff hn] at skips
      obtain ⟨g, hg, hready⟩ := h.freeDependents apart hM.coherent hm.coherent hid freed
      refine ⟨_, .skip front' (hroom.symm.trans room) ((hm.coherent.skips_iff _ _).2 skips) hg,
        { h with
          records := h.records_insert (by rw [clock room])
          ready := ?_ }, .inl (clock room)⟩
      rw [Graph.ready_remove, Graph.ready_remove, hready]
  | start front₁ room planned starts takes =>
      obtain ⟨rfl, rfl, rfl⟩ := front.unique front₁
      obtain ⟨cost, hcost, rfl⟩ := Analytical.schedule_of_takes takes
      rw [h.costs] at hcost
      rw [hM.coherent.config, ← apart.config, ← hm.coherent.config] at starts
      refine ⟨_, .start front' (hroom.symm.trans room) (hplan.symm.trans planned) starts
        (Analytical.takes_of_cost _ hcost), { h with
          records := h.records_insert (by rw [clock room])
          ready := rfl
          agenda := ?_ }, .inl (clock room)⟩
      have hnow : M.kernel.now = m.kernel.now := clock room
      refine Eq.trans (Moment.agenda_of_takes hM rfl rfl rfl)
        (Eq.trans ?_ (Eq.symm (Moment.agenda_of_takes hm rfl rfl rfl)))
      rw [hnow, h.agenda]
  | @gather id n _ _ _ _ _ _ front₁ room planned gathers gives registered =>
      obtain ⟨rfl, rfl, rfl⟩ := front.unique front₁
      obtain ⟨rfl, cost, hcost, rfl⟩ := Analytical.schedule_of_gives gives
      rw [h.costs] at hcost
      rw [hM.coherent.group, ← apart.group, ← hm.coherent.group] at gathers
      have gives := Analytical.gives_of_cost hcost
      obtain ⟨gatherings, registered'⟩ := hm.register_eq gives id n.nodeClass
      refine ⟨_, .gather front' (hroom.symm.trans room) (hplan.symm.trans planned) gathers gives
        registered', { h with
          records := h.records_insert (by rw [clock room])
          ready := rfl
          agenda := ?_ }, .inl (clock room)⟩
      have hnow : M.kernel.now = m.kernel.now := clock room
      refine Eq.trans (Moment.agenda_of_gives hM rfl registered rfl rfl rfl rfl)
        (Eq.trans ?_ (Eq.symm (Moment.agenda_of_gives hm rfl registered' rfl rfl rfl rfl)))
      rw [hnow, h.agenda]

/-- What a drain of the whole does with nodes of the part, a drain of the part does. -/
theorem offers (step : InStep part M m) (offers : ReflTransGen Offer M M') :
    ∃ m', ReflTransGen Offer m m' ∧ Alike part M' m' ∧ InStep part M' m' := by
  induction offers with
  | refl => exact ⟨m, .refl, h, step⟩
  | @tail M₁ M₂ hoffers offer ih =>
      obtain ⟨m₁, hoffers', h₁, step₁⟩ := ih
      have hM₁ := hM.offers hoffers
      have hm₁ := hm.offers hoffers'
      obtain ⟨id, n, ready, front⟩ : ∃ id n ready, M₁.Front id n ready := by
        cases offer <;> exact ⟨_, _, _, ‹_›⟩
      cases hid : part.owns id with
      | true =>
          obtain ⟨m₂, hoffer, h₂, step₂⟩ := h₁.offer_own apart hM₁ hm₁ step₁ front hid offer
          exact ⟨m₂, hoffers'.tail hoffer, h₂, step₂⟩
      | false =>
          refine ⟨m₁, hoffers', h₁.offer_other apart hM₁ front hid offer, step₁.imp_left ?_⟩
          exact (Move.offer offer).now_eq.trans

/-- **A drain of the whole is, for the part, a drain of the part.** -/
theorem drains (step : InStep part M m) (drains : Drains M M') :
    ∃ m', Drains m m' ∧ Alike part M' m' := by
  obtain ⟨M₁, held, offers, hready, haside, rfl⟩ := drains
  obtain ⟨m₁, hoffers, h₁, -⟩ := h.offers apart hM hm step offers
  refine ⟨_, ⟨m₁, held.filter part.owns, hoffers, ?_, ?_, rfl⟩, { h₁ with
    ready := rfl
    aside := h.aside }⟩
  · rw [← h₁.ready, hready, List.filter_nil]
  · rw [← h₁.aside, haside, List.filter_append, h.aside]

end

end Alike

/-! ### Completions -/

/-- What an event does before the drain: the record of a node is closed, and its children are told. -/
structure Retires (id : NodeId) (r : Record) (k : Analytical) (m m' : Moment Analytical) : Prop where
  found : m.workload.statistics.records.find? id = some r
  started : r.start ≤ k.now
  freed : m.workload.graph.freeDependents id = .ok m'.workload.graph
  records : m'.workload.statistics.records =
    m.workload.statistics.records.insert id { r with finish := some k.now }
  aside : m'.aside = m.aside
  unfreed : m'.unfreed = m.unfreed
  lingering : m'.lingering = id :: m.lingering
  kernel : m'.kernel = k
  agenda : ∀ own, m'.agenda own = { m with kernel := k }.agenda own

namespace Retires

variable {s : Setup} {m m₁ m₂ : Moment Analytical} {event : Event} {k : Analytical} {id : NodeId}

/-- The next event does that for the node that waits for it. -/
theorem of_frees (h : Orderly s m) (next : m.kernel.next? = some (event, k))
    (closes : Closes event { m with kernel := k } m₁) (frees : Frees m₁ m₂) :
    ∃ id r, Awaits m.workload event id ∧ Retires id r k m m₂ := by
  have hagenda (own : NodeId → Bool) := closes.agenda own h next
  have hgraph := closes.graph
  obtain ⟨arrives, found, r, memory, hr, hstart, spares, rfl⟩ := closes
  obtain ⟨-, hid, -⟩ := (h.coherent.withKernel k).arriving arrives found
  obtain ⟨closed, holds, freed⟩ := frees
  cases closed
  rw [hgraph] at freed
  rw [hid] at hr
  refine ⟨_, r, Awaits.arriving arrives, hr, hstart, freed, ?_, rfl, rfl, rfl, rfl, hagenda⟩
  rw [← hid]
  rfl

/-- It can do so if the node has not started later. -/
theorem exists_frees (h : Orderly s m) (next : m.kernel.next? = some (event, k))
    (awaits : Awaits m.workload event id)
    (started : ∀ r, m.workload.statistics.records.find? id = some r → r.start ≤ k.now) :
    ∃ m₁ m₂, Closes event { m with kernel := k } m₁ ∧ Frees m₁ m₂ := by
  obtain ⟨c, w, arrives⟩ := awaits.arrives h.coherent
  obtain ⟨n, found, hn⟩ := h.coherent.present_of_running (awaits.running h.coherent)
  obtain ⟨r, hr, -⟩ := Record.running_iff.1 (awaits.running h.coherent)
  have hstart := started r hr
  rw [← s.built.id_eq hn] at hr
  have closes : Closes event { m with kernel := k } _ :=
    .intro arrives found ⟨r, _, hr, hstart, Statistics.spares_refl _ _, rfl⟩
  have h₁ := h.close next closes
  -- the node has not told its children yet, and it holds a slot
  obtain ⟨g, hg⟩ := h₁.coherent.lifecycle.freeable s.built
    (h₁.coherent.lifecycle.notMem_freed List.mem_cons_self) w.graph.ready
  exact ⟨_, _, closes, .intro rfl (fun r hr => h₁.coherent.slots.holds hr) hg⟩

end Retires

namespace Alike

variable {part whole : Setup} {rest : List Node} {M M₂ m m₂ : Moment Analytical}
variable {id : NodeId} {r : Record} {K k : Analytical}

/-- **The end of another node is not seen.** -/
theorem retire_other (apart : part.Apart whole rest) (hM : Coherent whole M) (h : Alike part M m)
    (hid : part.owns id = false) (retires : Retires id r K M M₂)
    (agenda : { M with kernel := K }.agenda part.owns = M.agenda part.owns)
    (costs : K.config = M.kernel.config) : Alike part M₂ m where
  records := by
    rw [retires.records]
    exact h.records_insert_other hid _
  ready := (ready_of_freed_other apart hM hid retires.freed).trans h.ready
  aside := by rw [retires.aside, h.aside]
  unfreed := ⟨retires.unfreed.trans h.unfreed.1, h.unfreed.2⟩
  lingering := by
    rw [retires.lingering, List.filter_cons_of_neg (ne_true_of_eq_false hid), h.lingering]
  agenda := (retires.agenda _).trans (agenda.trans h.agenda)
  costs := by rw [retires.kernel, costs, h.costs]

/-- **A node of the part ends in the part too**, at the same tick. -/
theorem retire_own (apart : part.Apart whole rest) (hM : Coherent whole M) (hm : Orderly part m)
    (h : Alike part M m) (hid : part.owns id = true) (retires : Retires id r K M M₂)
    (agenda : M.agenda part.owns = (K.now, id) :: { M with kernel := K }.agenda part.owns)
    (costs : K.config = M.kernel.config) :
    ∃ event k m₁ m₂, m.kernel.next? = some (event, k) ∧ Closes event { m with kernel := k } m₁ ∧
      Frees m₁ m₂ ∧ Alike part M₂ m₂ ∧ M₂.kernel.now = m₂.kernel.now := by
  obtain ⟨event, k, next, awaits, hnow, hcosts, hlater⟩ :=
    hm.next_of_agenda (fun _ _ => Setup.owns_of_lookup) (h.agenda.symm.trans agenda)
  have hrecord := h.records id hid
  rw [retires.found] at hrecord
  obtain ⟨m₁, m₂, closes, frees⟩ := Retires.exists_frees hm next awaits fun r' hr' => by
    cases hrecord.trans hr'
    rw [hnow]
    exact retires.started
  obtain ⟨id', r', awaits', retires'⟩ := Retires.of_frees hm next closes frees
  cases awaits.waiter?_eq.symm.trans awaits'.waiter?_eq
  cases hrecord.trans retires'.found
  -- the same children are told
  obtain ⟨g, hg, hready⟩ := h.freeDependents apart hM hm.coherent hid retires.freed
  rw [h.ready] at hg
  cases hg.symm.trans retires'.freed
  refine ⟨event, k, m₁, m₂, next, closes, frees, ⟨?_, hready, ?_, ?_, ?_, ?_, ?_⟩, ?_⟩
  · rw [retires.records, retires'.records]
    exact h.records_insert (by rw [hnow])
  · rw [retires.aside, retires'.aside, h.aside]
  · exact ⟨retires.unfreed.trans h.unfreed.1, retires'.unfreed.trans h.unfreed.2⟩
  · rw [retires.lingering, retires'.lingering, List.filter_cons_of_pos hid, h.lingering]
  · rw [retires.agenda, retires'.agenda, hlater]
  · rw [retires.kernel, retires'.kernel, costs, hcosts, h.costs]
  · rw [retires.kernel, retires'.kernel, hnow]

/-! ### Events -/

/-- A node that has told its children is removed. -/
theorem remove_other {M' : Moment Analytical} (h : Alike part M m) (hid : part.owns id = false)
    {told : List NodeId} (lingering : M.lingering = id :: told) (removes : Removes M M') :
    Alike part M' m := by
  obtain ⟨hlingering⟩ := removes
  cases lingering.symm.trans hlingering
  refine { h with
    ready := by rw [Graph.ready_remove, h.ready]
    lingering := ?_ }
  rw [← h.lingering, hlingering, List.filter_cons_of_neg (ne_true_of_eq_false hid)]

theorem remove_own {M' : Moment Analytical} (h : Alike part M m) (hid : part.owns id = true)
    {told : List NodeId} (lingering : M.lingering = id :: told) (removes : Removes M M') :
    ∃ m', Removes m m' ∧ Alike part M' m' := by
  obtain ⟨hlingering⟩ := removes
  cases lingering.symm.trans hlingering
  have hm : m.lingering = id :: told.filter part.owns := by
    rw [← h.lingering, hlingering, List.filter_cons_of_pos hid]
  refine ⟨_, .intro hm, { h with
    ready := ?_
    lingering := rfl }⟩
  rw [Graph.ready_remove, Graph.ready_remove, h.ready]

/-- **After an event the whole is like the part, or the part has handled its next event too.** -/
theorem turn {M' : Moment Analytical} (apart : part.Apart whole rest) (hM : Orderly whole M)
    (hm : Orderly part m) (blocked : Blocked part m) (h : Alike part M m) {event : Event}
    (next : M.kernel.next? = some (event, K)) (turn : Turn event { M with kernel := K } M') :
    Alike part M' m ∨ ∃ event k m', m.kernel.next? = some (event, k) ∧
      Turn event { m with kernel := k } m' ∧ Alike part M' m' := by
  have costs := Analytical.config_of_next next
  cases turn with
  | wake drains =>
      obtain ⟨id, awaits, -⟩ := Moment.agenda_of_next part.owns hM next
      exact absurd rfl awaits.ne_wake
  | drop drops => exact absurd drops (hM.coherent.withKernel K).not_drops
  | @complete _ _ M₁ M₂ M₃ _ closes frees drains removes =>
      obtain ⟨id, r, awaits, retires⟩ := Retires.of_frees hM next closes frees
      obtain ⟨id', awaits', agenda⟩ := Moment.agenda_of_next part.owns hM next
      cases awaits.waiter?_eq.symm.trans awaits'.waiter?_eq
      have hM₂ := (hM.close next closes).free frees
      have lingering : M₃.lingering = id :: M.lingering := by
        rw [drains.keeps.1.lingering, retires.lingering]
      cases hid : part.owns id with
      | false =>
          rw [if_neg (ne_true_of_eq_false hid)] at agenda
          have h₂ := h.retire_other apart hM.coherent hid retires agenda.symm costs
          obtain ⟨m', drains', h₃⟩ := h₂.drains apart hM₂ hm (.inr blocked) drains
          cases drains'.eq_of_blocked hm.coherent blocked
          exact .inl (h₃.remove_other hid lingering removes)
      | true =>
          rw [if_pos hid] at agenda
          obtain ⟨event', k, m₁, m₂, next', closes', frees', h₂, hnow⟩ :=
            h.retire_own apart hM.coherent hm hid retires agenda costs
          have hm₂ := (hm.close next' closes').free frees'
          obtain ⟨m₃, drains', h₃⟩ := h₂.drains apart hM₂ hm₂ (.inl hnow) drains
          obtain ⟨m', removes', h'⟩ := h₃.remove_own hid lingering removes
          exact .inr ⟨event', k, m', next', .complete closes' frees' drains' removes', h'⟩

end Alike

end TraceReplay
