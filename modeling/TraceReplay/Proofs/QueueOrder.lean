/-
**No overtaking within a resource.**

Nodes that use the same resource are handled in the order in which they joined the queue.  A drain
passes over nodes whose resource is full and hands them back when the queue is empty, so that they keep
their order among themselves and towards children that joined meanwhile and found no slot either.  A node
is never handled while one in front of it waits for the same resource: during a drain slots are only
taken, and what was full stays full.

Main definitions:

* `onResource` — those of some nodes that use a resource;
* `InLine` — the queue continues what was handled, resource by resource.

Main results:

* `InLine.handle`, `InLine.queue` — handling a node and queueing children keep it so;
* `Run.no_overtaking` — in a run without errors the nodes of a resource are handled in the order in which
  they joined the queue.
-/

import TraceReplay.Kernel.Scripted
import TraceReplay.Proofs.Engine.Watch

set_option relaxedAutoImplicit false
set_option autoImplicit false

namespace TraceReplay

open Relation
open TraceReplay.Action

/-! ### The order of the queue -/

/-- Those of some nodes that use a resource. -/
def onResource (g₀ : Graph) (r : Resource) (ids : List NodeId) : List NodeId :=
  ids.filter fun id => resourceOf g₀ id = some r

@[simp] theorem onResource_append (g₀ : Graph) (r : Resource) (ids ids' : List NodeId) :
    onResource g₀ r (ids ++ ids') = onResource g₀ r ids ++ onResource g₀ r ids' :=
  List.filter_append ids ids'

/-- The queue, and the nodes that a drain has put aside, continue what was handled: together they are
what joined the queue, resource by resource and in that order. -/
structure InLine (g₀ g : Graph) (aside : List NodeId) (hs : List Happening) : Prop where
  /-- Nodes that join together do so in ascending order. -/
  ascending : ∀ ids, .queued ids ∈ hs → ids.Pairwise (· < ·)
  /-- No node joins twice. -/
  once : (entered hs).Nodup
  /-- Nodes join when they wait for none. -/
  unblocked : ∀ id ∈ entered hs, g₀.Unblocked g.freed id
  /-- Nodes that are left stay in order. -/
  order : (aside ++ g.ready).Sublist (entered hs)
  resource : ∀ r, onResource g₀ r (entered hs) =
    onResource g₀ r (handled hs) ++ onResource g₀ r (aside ++ g.ready)

namespace InLine

variable {ns : List Node} {g₀ g g' : Graph} {aside : List NodeId} {hs : List Happening} {id : NodeId}
variable {rest : List NodeId}

theorem initial (hb : g₀.Built ns) : InLine g₀ g₀ [] [.queued g₀.ready] := by
  refine ⟨?_, ?_, fun id hid => ?_, ?_, fun r => ?_⟩
  · intro ids hids
    cases List.mem_singleton.1 hids
    exact hb.ready_ascending
  · rw [entered_queued]
    exact hb.ready_ascending.imp fun h => Nat.ne_of_lt h
  · rw [entered_queued] at hid
    obtain ⟨n, hn, hparents⟩ := (hb.mem_ready id).1 hid
    exact ⟨n, hn, by simp [hparents]⟩
  · simp
  · simp [onResource]

/-- The node at the front is put aside. -/
theorem block (h : InLine g₀ g aside hs) (hready : g.ready = id :: rest) :
    InLine g₀ { g with ready := rest } (aside ++ [id]) hs := by
  have horder := h.order
  rw [hready, List.append_cons] at horder
  exact { h with
    order := horder
    resource := fun r => by rw [h.resource r, hready, List.append_cons] }

/-- **The node at the front is handled**, where none of those put aside uses its resource. -/
theorem handle (h : InLine g₀ g aside hs) (hready : g.ready = id :: rest)
    (clear : ∀ r, resourceOf g₀ id = some r → ∀ id' ∈ aside, resourceOf g₀ id' ≠ some r) :
    InLine g₀ { g with ready := rest } aside (hs ++ [.handled id]) := by
  refine { h with
    ascending := fun ids hids => ?_
    once := by simpa using h.once
    unblocked := by simpa using h.unblocked
    order := ?_
    resource := fun r => ?_ }
  · rcases List.mem_append.1 hids with hids | hids
    · exact h.ascending ids hids
    · simp at hids
  · have horder := h.order
    rw [hready] at horder
    simpa using ((List.sublist_cons_self id rest).append_left aside).trans horder
  · have hresource := h.resource r
    rw [hready] at hresource
    by_cases hr : resourceOf g₀ id = some r
    · -- it is the first of its resource that is left
      have haside : (aside.filter fun id => resourceOf g₀ id = some r) = [] := by
        rw [List.filter_eq_nil_iff]
        simpa using clear r hr
      simpa [onResource, hr, haside] using hresource
    · simpa [onResource, hr] using hresource

/-- **Children join the queue together**, in ascending order and behind all others. -/
theorem queue (hb : g₀.Built ns) (h : InLine g₀ g aside hs) (counts : g₀.Counts g)
    (freed : g.freeDependents id = .ok g') :
    InLine g₀ g' aside (hs ++ [.queued (g'.ready.filter fun id => id ∉ g.ready)]) := by
  have hid : id ∉ g.freed := by
    intro hmem
    rw [Graph.freeDependents, if_pos hmem] at freed
    cases freed
  obtain ⟨unresolved, hok, -⟩ := counts.freeDependents hb hid
  cases freed.symm.trans hok
  -- the children that join waited for one node, so that they have not joined before
  have hnew (c : NodeId) (hc : c ∈ (g₀.childrenOf id).filter fun c => g₀.awaited g.freed c = some 1) :
      ¬g₀.Unblocked g.freed c := by
    intro hunblocked
    have hone := (List.mem_filter.1 hc).2
    rw [hunblocked.awaited] at hone
    simp at hone
  have hjoin : ((g.ready ++ (g₀.childrenOf id).filter fun c => g₀.awaited g.freed c = some 1).filter
      fun id => id ∉ g.ready) = (g₀.childrenOf id).filter fun c => g₀.awaited g.freed c = some 1 := by
    rw [List.filter_append, List.filter_eq_nil_iff.2 (by simp), List.nil_append, List.filter_eq_self]
    intro c hc
    have : c ∉ g.ready := fun hready => hnew c hc
      (h.unblocked c (h.order.subset (List.mem_append_right aside hready)))
    simpa using this
  dsimp only
  rw [hjoin]
  have hascending := (hb.childrenOf_ascending id).filter fun c => g₀.awaited g.freed c = some 1
  refine ⟨fun ids hids => ?_, ?_, fun c hc => ?_, ?_, fun r => ?_⟩
  · rcases List.mem_append.1 hids with hids | hids
    · exact h.ascending ids hids
    · cases List.mem_singleton.1 hids
      exact hascending
  · rw [entered_append, entered_queued, List.nodup_append]
    refine ⟨h.once, hascending.imp fun h => Nat.ne_of_lt h, ?_⟩
    rintro c hc _ hc' rfl
    exact hnew c hc' (h.unblocked c hc)
  · rw [entered_append, entered_queued] at hc
    rcases List.mem_append.1 hc with hc | hc
    · exact (h.unblocked c hc).cons id
    · obtain ⟨hmem, hone⟩ := List.mem_filter.1 hc
      exact (Graph.unblocked_cons hb hid c).2 (.inr ⟨hmem, by simpa using hone⟩)
  · rw [entered_append, entered_queued, ← List.append_assoc]
    exact h.order.append_right _
  · have hresource := h.resource r
    simp only [entered_append, entered_queued, handled_append, handled_queued, onResource_append,
      List.append_nil] at hresource ⊢
    rw [hresource]
    simp only [List.append_assoc]

/-- No children join. -/
theorem idle (h : InLine g₀ g aside hs) : InLine g₀ g aside (hs ++ [.queued []]) where
  ascending := fun ids hids => by
    rcases List.mem_append.1 hids with hids | hids
    · exact h.ascending ids hids
    · cases List.mem_singleton.1 hids
      exact .nil
  once := by simpa using h.once
  unblocked := by simpa using h.unblocked
  order := by simpa using h.order
  resource := by simpa using h.resource

/-- Removing a node does not touch the queue. -/
theorem remove (h : InLine g₀ g aside hs) (id : NodeId) : InLine g₀ (g.remove id) aside hs :=
  { h with
    unblocked := by rw [Graph.freed_remove]; exact h.unblocked
    order := by rw [Graph.ready_remove]; exact h.order
    resource := by simp only [Graph.ready_remove]; exact h.resource }

/-- The nodes put aside are handed back to a queue that is empty. -/
theorem handBack (h : InLine g₀ g aside hs) (hready : g.ready = []) :
    InLine g₀ { g with ready := aside } [] hs := by
  have horder := h.order
  rw [hready, List.append_nil] at horder
  exact { h with
    order := horder
    resource := fun r => by rw [h.resource r, hready, List.append_nil, List.nil_append] }

end InLine

/-! ### Drains and calls -/

variable {κ : Type} [Kernel κ] {s : Setup} {m m' : Moment κ} {hs : List Happening} {j : Array Entry}

/-- A drain handles a node only if none of those put aside uses its resource. -/
theorem InLine.offer (hc : Coherent s m) (h : InLine s.graph m.workload.graph m.aside hs)
    (hpassed : Passed s m) {id : NodeId} {n : Node} {rest : List NodeId} (front : m.Front id n rest)
    (offer : Offer m m') (haside : m'.aside = m.aside) :
    InLine s.graph m'.workload.graph m'.aside (hs ++ [.handled id,
      .queued (Engine.newcomers (m.workload.withReady rest) m'.workload)]) := by
  have handle (room : m.workload.pool.hasRoom n.nodeClass = true) :
      InLine s.graph (m.workload.withReady rest).graph m.aside (hs ++ [.handled id]) := by
    obtain ⟨hn, -⟩ := hc.front front
    refine h.handle front.queue fun r hr id' hid' hr' => ?_
    obtain ⟨n', hn', hclass'⟩ := Option.bind_eq_some_iff.1 hr'
    rw [resourceOf, hn, Option.bind_some] at hr
    -- what uses the same resource has the same room
    have hfull := hpassed id' n' hid' hn'
    rw [← Bool.not_eq_true, SlotPool.hasRoom_iff] at hfull
    rw [SlotPool.hasRoom_iff] at room
    refine hfull fun r' hr' => room r' ?_
    rw [hr, ← hclass', hr']
  have idle (room : m.workload.pool.hasRoom n.nodeClass = true) :
      InLine s.graph (m.workload.withReady rest).graph m.aside (hs ++ [.handled id,
        .queued (rest.filter fun id => id ∉ rest)]) := by
    rw [List.filter_eq_nil_iff.2 (by simp), List.append_cons]
    exact (handle room).idle
  cases offer with
  | block front' full => simp at haside
  | start front' room =>
      obtain ⟨rfl, rfl, rfl⟩ := front.unique front'
      exact idle room
  | gather front' room =>
      obtain ⟨rfl, rfl, rfl⟩ := front.unique front'
      exact idle room
  | @skip id' n' rest' g front' room skips freed =>
      obtain ⟨rfl, rfl, rfl⟩ := front.unique front'
      have hcounts : s.graph.Counts (m.workload.withReady rest').graph :=
        ⟨hc.lifecycle.counts.children, hc.lifecycle.counts.unresolved⟩
      have hqueue := ((handle room).queue s.built hcounts freed).remove n'.id
      rw [List.append_assoc, ← g.ready_remove n'.id] at hqueue
      exact hqueue

/-- A drain with enough fuel keeps the queue in line. -/
theorem ends_watchedDrainFrom {fuel : Nat} : ∀ {m : Moment κ} {hs : List Happening} {j : Array Entry},
    m.workload.graph.work < fuel → Coherent s m → InLine s.graph m.workload.graph m.aside hs →
      Passed s m → Ends (Engine.watchedDrainFrom fuel m.aside) ⟨m.toEngine, j⟩
        (fun hs' t => InLine s.graph t.state.workload.graph [] (hs ++ hs')) fun _ _ => True := by
  induction fuel with
  | zero => exact fun hfuel => absurd hfuel (Nat.not_lt_zero _)
  | succ fuel ih =>
      intro m hs j hfuel hc h hpassed
      simp only [Engine.watchedDrainFrom, ends_bind, Engine.ends_takeReady]
      cases hready : m.workload.graph.ready with
      | nil =>
          simp only [Engine.handBack, Engine.ends_updateWorkload, Engine.foldl_pushBack, hready,
            List.nil_append, ends_pure, List.append_nil]
          exact h.handBack hready
      | cons id rest =>
          simp only [Engine.ends_lookup]
          cases hfound : m.workload.graph.lookup id with
          | none => exact absurd hfound (hc.lookup_front hready)
          | some n =>
              have front : m.Front id n rest := ⟨hready, hfound⟩
              have found : (m.workload.withReady rest).graph.lookup id = some n := hfound
              simp only [found, Engine.onPool, SlotPool.check, ends_on, ends_stopAs, ends_bind,
                ends_get, ends_note, ends_pure, ends_ite]
              refine ⟨fun room => ?_, fun blocked => ?_⟩
              · simp only [Engine.joining, Engine.workloadOf, ends_bind, ends_get, ends_pure]
                refine (Engine.ends_issue front room).imp ?_ fun _ _ _ => trivial
                rintro _ t ⟨m', offer, haside, ht⟩
                have hwork := Engine.work_offer offer
                have hrest := ih (j := t.journal) (by omega) (hc.offer offer)
                  (h.offer hc hpassed front offer haside) (offer.passed hc hpassed)
                rw [haside, ht] at hrest
                refine hrest.imp ?_ fun _ _ _ => trivial
                intro hs' t' hline'
                simpa [← ht] using hline'
              · have offer := Offer.block front (Bool.eq_false_iff.2 blocked)
                have hwork := Engine.work_offer offer
                exact ih (by omega) (hc.offer offer) (h.block hready) (offer.passed hc hpassed)

/-- A drain keeps the queue in line. -/
theorem ends_watchedDrain (hc : Coherent s m) (h : InLine s.graph m.workload.graph [] hs)
    (haside : m.aside = []) : Ends Engine.watchedDrain ⟨m.toEngine, j⟩
      (fun hs' t => InLine s.graph t.state.workload.graph [] (hs ++ hs')) fun _ _ => True := by
  simp only [Engine.watchedDrain, Engine.workloadOf, ends_bind, ends_get, ends_pure]
  have hdrain := ends_watchedDrainFrom (j := j) (Nat.lt_succ_self m.workload.graph.work) hc
    (haside ▸ h) fun id n hid => by simp [haside] at hid
  rwa [haside] at hdrain

/-- What is done with an event keeps the queue in line. -/
theorem ends_watchedTurn {event : Event} (hc : Coherent s m)
    (h : InLine s.graph m.workload.graph [] hs) (haside : m.aside = []) :
    Ends (Engine.watchedTurn event) ⟨m.toEngine, j⟩
      (fun hs' t => InLine s.graph t.state.workload.graph [] (hs ++ hs')) fun _ _ => True := by
  by_cases hwake : event = .wake
  · subst hwake
    exact ends_watchedDrain hc h haside
  · rw [Engine.watchedTurn_eq hwake, ends_bind]
    refine (Engine.ends_arrive hwake).imp ?_ fun _ _ _ => trivial
    rintro (_ | ⟨id, c⟩) t
    · rintro ⟨m', drops, ht⟩
      exact absurd drops hc.not_drops
    · rintro ⟨w, arrives, ht⟩
      rw [show t = ⟨{ m.toEngine with workload := w }, t.journal⟩ by rw [← ht]]
      simp only [Engine.joining, Engine.workloadOf, ends_bind, ends_get, ends_pure]
      refine (Engine.ends_retire arrives).imp ?_ fun _ _ _ => trivial
      rintro _ t ⟨m₁, m₂, rest, closes, frees, told, ht⟩
      have hc₁ := hc.close closes
      have hc₂ := hc₁.free frees
      have hline : InLine s.graph m₂.workload.graph []
          (hs ++ [.queued (Engine.newcomers w m₂.workload)]) := by
        obtain ⟨-, -, freed⟩ := frees
        rw [closes.graph] at freed
        rw [Engine.newcomers, arrives.keeps.1]
        exact h.queue s.built hc.lifecycle.counts freed
      rw [show t = ⟨m₂.toEngine, t.journal⟩ by rw [ht]]
      refine (ends_watchedDrain hc₂ hline ((closes.aside_eq frees).trans haside)).imp ?_ fun _ _ _ => trivial
      rintro hs' ⟨e, j⟩ hline'
      rw [Engine.ends_changeGraph]
      simpa using hline'.remove id

/-- Checking whether the run has ended does not touch the graph. -/
theorem ends_checkTermination_graph {e : Engine κ} : Ends Engine.checkTermination ⟨e, j⟩
    (fun _ t => t.state.workload.graph = e.workload.graph) fun _ _ => True := by
  simp only [Engine.checkTermination, Engine.workloadOf, Engine.onStatistics, ends_bind, ends_get,
    ends_pure, ends_ite, Engine.ends_now, Engine.ends_updateWorkload, ends_note, ends_on,
    Statistics.noteReport]
  exact ⟨fun _ => trivial, fun _ => ends_iff.2 ⟨fun _ t _ => ends_forM_note _ fun _ => trivial,
    fun _ _ _ => trivial⟩⟩

/-- **The queue of a run without errors stays in line.** -/
theorem Chronicle.inLine {calls : List Call} {e : Engine κ} (chronicle : Chronicle s calls hs e) :
    Quiet calls ∧ InLine s.graph e.workload.graph [] hs := by
  induction chronicle with
  | start k =>
      obtain ⟨-, group, hw⟩ := s.created_iff
      refine ⟨fun c hc => absurd hc List.not_mem_nil, ?_⟩
      rw [Setup.engine, hw]
      exact .initial s.built
  | @returns calls hs hs' e k event j t chronicle later conforms call ih =>
      obtain ⟨quiet, hline⟩ := ih
      refine ⟨fun c hc => (List.mem_cons.1 hc).elim (fun hc => by rw [hc]) (quiet c), ?_⟩
      obtain ⟨m, rfl, h⟩ := chronicle.run.atRest
      suffices hs : Ends (Engine.watchedCall event) ⟨{ m.toEngine with kernel := k }, j⟩
          (fun hs' t => InLine s.graph t.state.workload.graph [] (hs ++ hs')) fun _ _ => True from
        hs.of_ok call
      simp only [Engine.watchedCall, Engine.workloadOf, ends_bind, ends_get, ends_pure, ends_ite]
      refine ⟨fun _ => by simpa using hline, fun _ => ?_⟩
      refine (ends_watchedTurn (m := { m with kernel := k }) (h.later later).coherent hline
        (h.tidy quiet).1).imp ?_ fun _ _ _ => trivial
      intro hs' t hline'
      refine (ends_checkTermination_graph (e := t.state) (j := t.journal)).imp ?_ fun _ _ _ => trivial
      intro _ t' hgraph
      rw [hgraph]
      exact hline'

/-- **No node is overtaken by another that uses the same resource.**  A run without errors can be
watched.  Whatever is seen, nodes that join the queue together do so in ascending order, first those
without parents and then the children that wait for a node no longer; no node joins twice; the nodes of
a resource are handled in the order in which they joined; and those that are left stay in it. -/
theorem Run.no_overtaking {calls : List Call} {e : Engine κ} (run : Run s calls e)
    (quiet : Quiet calls) : (∃ hs, Chronicle s calls hs e) ∧ ∀ hs, Chronicle s calls hs e →
      hs.head? = some (.queued s.graph.ready) ∧
      (∀ ids, .queued ids ∈ hs → ids.Pairwise (· < ·)) ∧ (entered hs).Nodup ∧
      (∀ r, onResource s.graph r (entered hs) =
        onResource s.graph r (handled hs) ++ onResource s.graph r e.workload.graph.ready) ∧
      e.workload.graph.ready.Sublist (entered hs) := by
  refine ⟨run.chronicle quiet, fun hs chronicle => ?_⟩
  obtain ⟨-, hline⟩ := chronicle.inLine
  refine ⟨?_, hline.ascending, hline.once, hline.resource, hline.order⟩
  clear hline
  induction chronicle with
  | start k => rfl
  | returns chronicle later conforms call ih =>
      have hfirst := ih chronicle.run fun c hc => quiet c (List.mem_cons_of_mem _ hc)
      rw [List.head?_append, hfirst]
      rfl

/-- Three computations for one slot, the last of which waits for a node that is skipped. -/
@[irreducible] def Setup.line : Setup :=
  let task (id : NodeId) (kind : NodeKind) (ctrlDeps : List NodeId) : Node :=
    { id, name := "task", kind, dataDeps := [], ctrlDeps, attributes := { runtime := some 3 } }
  .ofTrace {} [task 1 .compute [], task 2 .invalid [], task 3 .compute [],
    task 4 .compute [2]]

/-- The first drain blocks the third node before the fourth has joined the queue. -/
example : Ends (Engine.watchedCall .wake) ⟨Setup.line.engine ({} : Scripted), #[]⟩
    (fun hs t => hs = [.handled 1, .queued [], .handled 2, .queued [4]] ∧
      t.state.workload.graph.ready = [3, 4]) fun _ _ => False := by decide +kernel

/-- Once the first computation has come back the second is handled, and the third is left. -/
theorem Run.no_overtaking_line : ∃ e : Engine Scripted,
    Setup.line.drive {} [(.nodeFinished ⟨0⟩, {}), (.wake, {})] = some e ∧
      e.workload.graph.ready = [4] ∧ ∃ hs,
        Chronicle .line [⟨.nodeFinished ⟨0⟩, none⟩, ⟨.wake, none⟩] hs e ∧
          onResource Setup.line.graph .cpuCompute (entered hs) =
            onResource Setup.line.graph .cpuCompute (handled hs) ++ [4] := by
  have hdrive : ((Setup.line.drive ({} : Scripted) [(.nodeFinished ⟨0⟩, {}), (.wake, {})]).map
      fun e => e.workload.graph.ready) = some [4] := by decide +kernel
  have hfour : onResource Setup.line.graph .cpuCompute [4] = [4] := by decide +kernel
  obtain ⟨e, he, hready⟩ := Option.map_eq_some_iff.1 hdrive
  obtain ⟨⟨hs, chronicle⟩, horder⟩ := Run.no_overtaking (.of_drive he) (by simp [Quiet])
  obtain ⟨-, -, -, hresource, -⟩ := horder hs chronicle
  refine ⟨e, he, hready, hs, chronicle, ?_⟩
  rw [hresource, hready, hfour]

end TraceReplay
