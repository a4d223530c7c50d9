/-
**The state of an engine fits together.**

The invariants of graph, queue and records, of tokens and handles, and of slots are kept by every move
of the engine, whatever the kernel does.  They also survive a call that stops early, since a moment
keeps account of the nodes that such a call leaves behind.

Main definitions:

* `Setup`, `Setup.ofTrace` — what an engine is made from, also without any files;
* `Coherent` — the parts of an engine fit together at a moment;
* `Punctual` — under a clock that never goes back its records are a schedule.

Main results:

* `Coherent.move`, `Coherent.moves` — every move keeps them fitting together;
* `Punctual.move`, `Punctual.moves` — and the records a schedule.
-/

import TraceReplay.Proofs.Engine.Simulation
import TraceReplay.Proofs.Engine.Timing

set_option relaxedAutoImplicit false
set_option autoImplicit false

namespace TraceReplay

open Relation

/-! ### Engines before their first event -/

/-- A trace that is accepted, and a configuration with which an engine can be made from it. -/
structure Setup where
  trace : List Node
  files : FileTree
  config : EngineConfig
  graph : Graph
  workload : Workload
  entries : List Entry
  accepted : Graph.ofNodes trace = .ok graph
  created : Workload.create files config graph .full = .ok (workload, entries)

namespace Setup

variable (s : Setup)

theorem built : s.graph.Built s.trace := Graph.built_of_ofNodes s.accepted

/-- The configuration can be used, and nothing has been done yet. -/
theorem created_iff : s.config.validate = .ok () ∧
    ∃ group, s.workload = .initial s.config s.graph .full group := by
  have h := s.created
  rw [Workload.create] at h
  cases hv : s.config.validate with
  | error e => rw [hv] at h; cases h
  | ok _ =>
      cases hg : Workload.groupOf s.files s.config with
      | error e => rw [hv, hg] at h; cases h
      | ok group =>
          rw [hv, hg] at h
          exact ⟨rfl, group, (congrArg Prod.fst (Except.ok.inj h)).symm⟩

/-- A trace under a configuration that names no file of groups. -/
def ofTrace (config : EngineConfig) (trace : List Node)
    (usable : (Graph.ofNodes trace).isOk = true ∧ config.validate = .ok () ∧
      config.commGroupFile = none := by exact ⟨rfl, rfl, rfl⟩) : Setup where
  trace := trace
  files := ⟨[]⟩
  config := config
  graph := (Graph.ofNodes trace).toOption.getD {}
  workload := .initial config ((Graph.ofNodes trace).toOption.getD {}) .full none
  entries := []
  accepted := by
    cases h : Graph.ofNodes trace with
    | ok graph => rfl
    | error e => rw [h] at usable; cases usable.1
  created := by
    rw [Workload.create, usable.2.1, Workload.groupOf, usable.2.2]
    rfl

end Setup

/-! ### Slots of what is remembered -/

section

variable {g₀ : Graph} {f : InFlight} {h : Gatherings} {id : NodeId} {c : NodeClass} {r : Resource}

theorem heldOn_insert (fresh : f.contexts.find? f.issued = none) (expected : Expected) :
    heldOn g₀ (f.insert ⟨id, c, expected⟩).2 h r =
      heldOn g₀ f h r + if resourceOf g₀ id = some r then 1 else 0 := by
  simp only [heldOn, InFlight.insert, SortedMap.count_insert_of_none fresh, decide_eq_true_eq]
  omega

theorem heldOn_register (new : h.outstanding.find? id = none) {handle : Handle} {h' : Gatherings}
    (registered : h.register handle id c = .ok h') :
    heldOn g₀ f h' r = heldOn g₀ f h r + if resourceOf g₀ id = some r then 1 else 0 := by
  rw [Gatherings.register] at registered
  split at registered
  · cases registered
  · simp only [new, Option.getD_none, Except.ok.injEq] at registered
    subst registered
    simp only [heldOn, SortedMap.count_insert_of_none new, decide_eq_true_eq]
    omega

theorem heldOn_arrives {w w' : Workload} {event : Event} (arrives : Arrives w event id c w') :
    heldOn g₀ w'.inFlight w'.gatherings r + (if resourceOf g₀ id = some r then 1 else 0) =
      heldOn g₀ w.inFlight w.gatherings r := by
  cases arrives with
  | token out =>
      have := SortedMap.count_erase_add
        (p := fun _ (context : Context) => resourceOf g₀ context.node = some r) out
      simp only [heldOn, decide_eq_true_eq] at this ⊢
      omega
  | handle out last =>
      have := SortedMap.count_erase_add (p := fun id _ => resourceOf g₀ id = some r) last
      simp only [heldOn, decide_eq_true_eq] at this ⊢
      omega

end

/-! ### Tensor traffic of nodes in flight -/

/-- The tensor traffic of every node in flight has begun, if it is tracked. -/
def Statistics.Traced (s : Statistics) : Prop :=
  ∀ tracker id, s.memory = some tracker → Record.running s.records id = true →
    tracker.opened.find? id ≠ none

namespace Statistics

variable {s s' : Statistics} {id : NodeId} {c : NodeClass} {tick : Tick}

theorem Traced.open (h : s.Traced) (hc : OperatorType.ofClass c ≠ .invalid)
    (metrics : Option Metrics) : (s.openRecord id c tick metrics).Traced := by
  intro tracker id' htracker hrunning
  simp only [openRecord, recordStart, hc, ↓reduceIte, Option.map_eq_some_iff] at htracker
  obtain ⟨tracker, hmemory, rfl⟩ := htracker
  rw [Tracker.recordStart, SortedMap.find?_insert]
  split
  · simp
  next hid =>
    simp only [openRecord] at hrunning
    rw [Record.running_insert, if_neg hid] at hrunning
    exact h tracker id' hmemory hrunning

theorem Traced.skip (h : s.Traced) : (s.skipRecord id tick).Traced := by
  intro tracker id' hmemory hrunning
  simp only [skipRecord] at hmemory hrunning
  rw [Record.running_insert] at hrunning
  split at hrunning
  · cases hrunning
  · exact h tracker id' hmemory hrunning

theorem Traced.close (h : s.Traced) {n : Node} (closed : s.Closed n tick s') : s'.Traced := by
  obtain ⟨r, memory, hr, hstart, hspares, rfl⟩ := closed
  intro tracker id' hmemory hrunning
  simp only [Record.running_insert] at hmemory hrunning
  split at hrunning
  · cases hrunning
  next hid =>
    cases hbefore : s.memory with
    | none =>
        rw [hspares.eq_none hbefore] at hmemory
        cases hmemory
    | some before =>
        rw [hbefore] at hspares
        obtain ⟨after, rfl, hspares⟩ := hspares
        cases hmemory
        rw [hspares id' hid]
        exact h before id' hbefore hrunning

end Statistics

/-! ### Coherence -/

/-- Nodes of a class are not accounted as invalid. -/
theorem OperatorType.ofClass_ne_invalid {c : NodeClass} (h : c ≠ .invalid) : ofClass c ≠ .invalid := by
  cases c <;> simp [ofClass] at h ⊢

variable {κ : Type}

/-- The parts of an engine fit together. -/
structure Coherent (s : Setup) (m : Moment κ) : Prop where
  config : m.workload.config = s.config
  adapter : m.workload.adapter = .full
  group : m.workload.group = s.workload.group
  lifecycle : Lifecycle s.graph m.workload.graph m.workload.statistics.records m.aside m.unfreed
    m.lingering
  custody : Custody s.graph m.workload.statistics.records m.workload.inFlight m.workload.gatherings
    m.asked m.delivered
  slots : Slots s.graph s.config.resources m.workload.pool m.workload.statistics.records
    m.workload.inFlight m.workload.gatherings m.unfreed
  /-- Nodes are skipped that would have been skipped at the beginning. -/
  skipped : ∀ id r n, m.workload.statistics.records.find? id = some r → s.graph.lookup id = some n →
    s.workload.Skips n ∧ r.operatorType = .invalid ∨
      ¬s.workload.Skips n ∧ r.operatorType = .ofClass n.nodeClass
  untracked : s.config.trackMemory = false → m.workload.statistics.memory = none
  traced : m.workload.statistics.Traced

namespace Coherent

variable {s : Setup} {m m' : Moment κ}

/-- The kernel may change. -/
theorem withKernel (h : Coherent s m) (k : κ) : Coherent s { m with kernel := k } := { h with }

/-- The node at the front of the queue has no record, and is the node of the trace with its id. -/
theorem front (h : Coherent s m) {id : NodeId} {n : Node} {rest : List NodeId}
    (front : m.Front id n rest) : s.graph.lookup id = some n ∧ n.id = id ∧
      m.workload.statistics.records.find? id = none ∧
      s.graph.Unblocked m.workload.graph.freed id := by
  obtain ⟨hunblocked, hnone⟩ := h.lifecycle.new_of_front front.queue
  have hn := (h.lifecycle.present id).symm.trans front.found
  split at hn
  · cases hn
  · exact ⟨hn, s.built.id_eq hn, hnone, hunblocked⟩

/-- The nodes in the queue are nodes of the graph. -/
theorem lookup_front (h : Coherent s m) {id : NodeId} {rest : List NodeId}
    (queue : m.workload.graph.ready = id :: rest) : m.workload.graph.lookup id ≠ none := by
  obtain ⟨⟨n, hn, -⟩, hnone⟩ := h.lifecycle.new_of_front queue
  rw [h.lifecycle.present id, if_neg, hn]
  · simp
  · exact fun hfreed => h.lifecycle.notMem_freed_of_none hnone hfreed.1

/-- Plans do not change during a run. -/
theorem planOf_eq (h : Coherent s m) (ready : List NodeId) (n : Node) :
    (m.workload.withReady ready).planOf n = s.workload.planOf n := by
  obtain ⟨-, group, hw⟩ := s.created_iff
  have hsizes : m.workload.graph.tensorSizeOf = s.graph.tensorSizeOf := funext h.lifecycle.sizes
  rw [hw]
  show Plan.ofNode m.workload.config (m.workload.adapter.tensorSizeOf _) n n.nodeClass = _
  rw [h.config, h.adapter]
  show Plan.ofNode s.config m.workload.graph.tensorSizeOf n n.nodeClass = _
  rw [hsizes]
  rfl

theorem forgives_eq (h : Coherent s m) (e : ReplayError) :
    m.workload.forgives e = s.workload.forgives e := by
  obtain ⟨-, group, hw⟩ := s.created_iff
  rw [Workload.forgives, Workload.forgives, h.config, hw]
  rfl

theorem skips_iff (h : Coherent s m) (ready : List NodeId) (n : Node) :
    (m.workload.withReady ready).Skips n ↔ s.workload.Skips n := by
  rw [Workload.Skips, Workload.Skips, h.planOf_eq]
  refine or_congr Iff.rfl (exists_congr fun e => and_congr_right fun _ => ?_)
  rw [← h.forgives_eq e]
  rfl

/-- A node whose plan is not to skip it has a class. -/
theorem ofClass_ne {w : Workload} {n : Node} {plan : Plan} (planned : w.planOf n = .ok plan)
    (hskip : plan ≠ .skip) : OperatorType.ofClass n.nodeClass ≠ .invalid := by
  have sound := w.sound_planOf n
  rw [planned] at sound
  exact OperatorType.ofClass_ne_invalid fun h => hskip (sound.1.2 h)

/-- The type of a record says whether its node is one that is skipped. -/
theorem operatorType_eq_invalid_iff (h : Coherent s m) {id : NodeId} {n : Node} {r : Record}
    (hr : m.workload.statistics.records.find? id = some r) (hn : s.graph.lookup id = some n) :
    r.operatorType = .invalid ↔ s.workload.Skips n := by
  rcases h.skipped id r n hr hn with ⟨hskips, htype⟩ | ⟨hkept, htype⟩
  · exact iff_of_true htype hskips
  · refine iff_of_false ?_ hkept
    rw [htype]
    exact OperatorType.ofClass_ne_invalid fun hclass => hkept (.inl (if_pos hclass))

/-- What is said of skipped nodes stays true when a new record says it. -/
theorem skipped_insert (h : Coherent s m) {id : NodeId} {n : Node} {r : Record}
    (hn : s.graph.lookup id = some n)
    (hr : s.workload.Skips n ∧ r.operatorType = .invalid ∨
      ¬s.workload.Skips n ∧ r.operatorType = .ofClass n.nodeClass) :
    ∀ id' r' n', (m.workload.statistics.records.insert id r).find? id' = some r' →
      s.graph.lookup id' = some n' →
        s.workload.Skips n' ∧ r'.operatorType = .invalid ∨
          ¬s.workload.Skips n' ∧ r'.operatorType = .ofClass n'.nodeClass := by
  intro id' r' n' hr' hn'
  rcases SortedMap.eq_or_find?_of_insert hr' with ⟨rfl, rfl⟩ | hr'
  · cases hn.symm.trans hn'
    exact hr
  · exact h.skipped id' r' n' hr' hn'

theorem not_skips (h : Coherent s m) {ready : List NodeId} {n : Node} {plan : Plan}
    (planned : (m.workload.withReady ready).planOf n = .ok plan) (hskip : plan ≠ .skip) :
    ¬s.workload.Skips n := by
  rw [← h.skips_iff ready]
  rintro (hplan | ⟨e, herror, -⟩)
  · rw [planned] at hplan
    cases hplan
    exact hskip rfl
  · rw [planned] at herror
    cases herror

/-- Without tensor traffic none is opened. -/
theorem openRecord_memory {s : Statistics} (h : s.memory = none) {id : NodeId} {c : NodeClass}
    {tick : Tick} {metrics : Option Metrics} : (s.openRecord id c tick metrics).memory = none := by
  simp [Statistics.openRecord, Statistics.recordStart, h]

/-- The node of an event that is taken is in flight and still in the graph. -/
theorem arriving (h : Coherent s m) {event : Event} {id : NodeId} {c : NodeClass} {w : Workload}
    {n : Node} (arrives : Arrives m.workload event id c w)
    (found : m.workload.graph.lookup id = some n) :
    s.graph.lookup id = some n ∧ n.id = id ∧
      Record.running m.workload.statistics.records id = true ∧ c = n.nodeClass := by
  obtain ⟨hrunning, n', hn', hc⟩ := h.custody.of_arrives arrives
  have hpresent := (h.lifecycle.present id).symm.trans found
  split at hpresent
  · cases hpresent
  · cases hn'.symm.trans hpresent
    exact ⟨hn', s.built.id_eq hn', hrunning, hc⟩

/-- The nodes in flight fit into the slots. -/
theorem running_le (h : Coherent s m) (r : Resource) :
    runningOn s.graph m.workload.statistics.records r ≤ s.config.resources.get r := by
  have hbound := h.slots.bound r
  rw [h.slots.taken r] at hbound
  omega

/-- The parents of a node that waits for none have ended. -/
theorem parents_ended (h : Coherent s m) {id : NodeId}
    (hid : s.graph.Unblocked m.workload.graph.freed id) :
    ∀ n, s.graph.lookup id = some n → ∀ p ∈ n.parents,
      Record.ended m.workload.statistics.records p = true := by
  obtain ⟨n, hn, hparents⟩ := hid
  intro n' hn' p hp
  cases hn.symm.trans hn'
  exact ((h.lifecycle.freed p).1 (hparents p hp)).1

/-- A node in flight is still in the graph. -/
theorem present_of_running (h : Coherent s m) {id : NodeId}
    (hrunning : Record.running m.workload.statistics.records id = true) :
    ∃ n, m.workload.graph.lookup id = some n ∧ s.graph.lookup id = some n := by
  obtain ⟨r, hr, -⟩ := Record.running_iff.1 hrunning
  obtain ⟨⟨n, hn, -⟩, -⟩ := h.lifecycle.started id r hr
  refine ⟨n, ?_, hn⟩
  rw [h.lifecycle.present id, if_neg, hn]
  rintro ⟨hfreed, -⟩
  have hended := ((h.lifecycle.freed id).1 hfreed).1
  rw [Record.ended_of_running hrunning] at hended
  cases hended

/-- A node in flight was not skipped. -/
theorem not_skips_of_running (h : Coherent s m) {id : NodeId} {n : Node}
    (hrunning : Record.running m.workload.statistics.records id = true)
    (hn : s.graph.lookup id = some n) : ¬s.workload.Skips n := by
  obtain ⟨r, hr, hopen⟩ := Record.running_iff.1 hrunning
  rcases h.skipped id r n hr hn with ⟨-, hinvalid⟩ | ⟨hkept, -⟩
  · exact absurd hinvalid (h.custody.busy id r hr hopen)
  · exact hkept

/-- When no work is left no node is in the graph. -/
theorem lookup_eq_none (h : Coherent s m)
    (done : m.workload.adapter.hasRemainingWork m.workload.graph = false) (id : NodeId) :
    m.workload.graph.lookup id = none := by
  rw [h.adapter, Adapter.hasRemainingWork, Graph.hasRemainingWork, Bool.or_eq_false_iff,
    Bool.not_eq_false', Graph.isEmpty] at done
  exact SortedMap.isEmpty_iff.1 done.1 id

/-- When no work is left no node is in flight. -/
theorem not_running (h : Coherent s m)
    (done : m.workload.adapter.hasRemainingWork m.workload.graph = false) (id : NodeId) :
    ¬Record.running m.workload.statistics.records id = true := by
  intro hrunning
  obtain ⟨n, hn, -⟩ := h.present_of_running hrunning
  rw [h.lookup_eq_none done id] at hn
  cases hn

/-- When no work is left all slots are free, if all children have been told. -/
theorem isIdle (h : Coherent s m)
    (done : m.workload.adapter.hasRemainingWork m.workload.graph = false) (unfreed : m.unfreed = []) :
    m.workload.pool.isIdle = true := by
  refine m.workload.pool.isIdle_iff.2 fun r => ?_
  have hnone : runningOn s.graph m.workload.statistics.records r = 0 := by
    refine SortedMap.count_eq_zero_iff.2 fun id record hrecord => ?_
    rw [Bool.and_eq_false_iff]
    refine .inl (Bool.eq_false_iff.2 fun hopen => h.not_running done id ?_)
    exact Record.running_iff.2 ⟨record, hrecord, Option.isNone_iff_eq_none.1 hopen⟩
  rw [h.slots.taken r, unfreed, hnone]
  rfl

theorem handBack (h : Coherent s m) (handsBack : HandsBack m m') : Coherent s m' := by
  obtain ⟨split⟩ := handsBack
  exact { h with
    lifecycle := h.lifecycle.reorder (by
      rw [split, List.append_assoc]
      exact List.perm_append_comm.append_left _) }

/-- A handle never finishes for a node that has others out. -/
theorem not_drops {event : Event} (h : Coherent s m) : ¬Drops event m m' := by
  rintro ⟨-, -, others⟩
  exact h.custody.outstanding_ne _ others

theorem free (h : Coherent s m) (frees : Frees m m') : Coherent s m' := by
  obtain ⟨closed, holds, freed⟩ := frees
  have hlifecycle := h.lifecycle
  have hslots := h.slots
  rw [closed] at hlifecycle hslots
  exact { h with
    lifecycle := hlifecycle.free s.built freed
    slots := hslots.free }

theorem remove (h : Coherent s m) (removes : Removes m m') : Coherent s m' := by
  obtain ⟨told⟩ := removes
  have hlifecycle := h.lifecycle
  rw [told] at hlifecycle
  exact { h with lifecycle := hlifecycle.remove }

variable [Kernel κ]

theorem offer (h : Coherent s m) (offer : Offer m m') : Coherent s m' := by
  cases offer with
  | block front full =>
      exact { h with
        lifecycle := h.lifecycle.reorder (by
          rw [front.queue, ← List.append_assoc]
          exact List.perm_append_singleton _ _) }
  | skip front room skips freed =>
      obtain ⟨hn, hid, hnone, hunblocked⟩ := h.front front
      rw [hid] at freed ⊢
      exact { h with
        lifecycle := h.lifecycle.skip s.built front.queue rfl rfl freed
        custody := h.custody.skip hnone rfl rfl
        slots := h.slots.skip hnone rfl
        skipped := h.skipped_insert hn (.inl ⟨(h.skips_iff _ _).1 skips, rfl⟩)
        traced := h.traced.skip }
  | @start id n rest plan operation metrics k front room planned starts takes =>
      obtain ⟨hn, hid, hnone, hunblocked⟩ := h.front front
      have hskip : plan ≠ .skip := by rintro rfl; cases starts
      have htype := ofClass_ne planned hskip
      exact { h with
        lifecycle := h.lifecycle.start front.queue rfl rfl
        custody := h.custody.start hnone hn rfl htype _
        slots := h.slots.issue hn room hnone rfl fun r =>
          heldOn_insert (h.custody.fresh _ (Nat.le_refl _)) _
        skipped := h.skipped_insert hn (.inr ⟨h.not_skips planned hskip, rfl⟩)
        untracked := fun ht => openRecord_memory (h.untracked ht)
        traced := h.traced.open htype _ }
  | @gather id n rest plan gathering handle k gatherings front room planned gathers gives registered =>
      obtain ⟨hn, hid, hnone, hunblocked⟩ := h.front front
      have hskip : plan ≠ .skip := by rintro rfl; cases gathers
      have htype := ofClass_ne planned hskip
      exact { h with
        lifecycle := h.lifecycle.start front.queue rfl rfl
        custody := h.custody.gather hnone hn rfl htype registered _
        slots := h.slots.issue hn room hnone rfl fun r =>
          heldOn_register (h.custody.outstanding_of_none hnone).2 registered
        skipped := h.skipped_insert hn (.inr ⟨h.not_skips planned hskip, rfl⟩)
        untracked := fun ht => openRecord_memory (h.untracked ht)
        traced := h.traced.open htype _ }

theorem close {event : Event} (h : Coherent s m) (closes : Closes event m m') : Coherent s m' := by
  obtain ⟨arrives, found, closed⟩ := closes
  have htraced := h.traced.close closed
  obtain ⟨r, memory, hr, hstart, hspares, rfl⟩ := closed
  obtain ⟨hn, hid, hrunning, hc⟩ := h.arriving arrives found
  rw [hid] at hr htraced ⊢
  have hfinish := Record.finish_of_running hrunning hr
  have hskipped := h.skipped_insert (r := { r with finish := some (Kernel.now m.kernel) }) hn
    (h.skipped _ r _ hr hn)
  have hslots := h.slots.close hn hr hfinish (Kernel.now m.kernel) fun r => heldOn_arrives arrives
  rw [← hc] at hslots
  cases arrives with
  | token out =>
      exact { h with
        lifecycle := h.lifecycle.close hr hfinish _ _
        custody := h.custody.close_token out hr hfinish _
        slots := hslots
        skipped := hskipped
        untracked := fun ht => hspares.eq_none (h.untracked ht)
        traced := htraced }
  | handle out last =>
      exact { h with
        lifecycle := h.lifecycle.close hr hfinish _ _
        custody := h.custody.close_handle out hr hfinish _
        slots := hslots
        skipped := hskipped
        untracked := fun ht => hspares.eq_none (h.untracked ht)
        traced := htraced }

theorem settle (h : Coherent s m) (settles : Settles m m') : Coherent s m' := by
  cases settles with
  | goOn busy => exact h
  | finish done idle untracked =>
      exact { h with
        untracked := fun ht => untracked (h.untracked ht)
        traced := fun _ _ _ hrunning => absurd hrunning (h.not_running done _) }

/-- **Every move keeps the parts of an engine fitting together.** -/
theorem move (h : Coherent s m) (move : Move m m') : Coherent s m' := by
  cases move with
  | wake => exact { h with custody := h.custody.wake }
  | offer hm => exact h.offer hm
  | leave queue =>
      exact { h with
        lifecycle := h.lifecycle.reorder (by
          rw [queue, ← List.append_assoc]
          exact List.perm_append_singleton _ _) }
  | handBack hm => exact h.handBack hm
  | close hm => exact h.close hm
  | drop hm => exact absurd hm h.not_drops
  | free hm => exact h.free hm
  | remove hm => exact h.remove hm
  | settle hm => exact h.settle hm

theorem moves (h : Coherent s m) (moves : ReflTransGen Move m m') : Coherent s m' := by
  induction moves with
  | refl => exact h
  | tail _ hm ih => exact ih.move hm

end Coherent

/-! ### Time -/

/-- The clock of a kernel does not go back while it takes requests. -/
structure Kernel.Steady (κ : Type) [Kernel κ] : Prop where
  takes : ∀ {k k' : κ} {token : Token} {operation : Operation},
    Kernel.Takes k token operation k' → Kernel.now k ≤ Kernel.now k'
  gives : ∀ {k k' : κ} {gathering : Gathering} {handle : Handle},
    Kernel.Gives k gathering handle k' → Kernel.now k ≤ Kernel.now k'

variable [Kernel κ]

/-- The records of a moment are a schedule. -/
def Punctual (s : Setup) (m : Moment κ) : Prop :=
  Timing s.graph s.config.resources m.workload.statistics.records (Kernel.now m.kernel)

namespace Punctual

variable {s : Setup} {m m' : Moment κ}

theorem offer (steady : Kernel.Steady κ) (hc : Coherent s m) (h : Punctual s m)
    (offer : Offer m m') : Punctual s m' := by
  have hfit := (hc.offer offer).running_le
  cases offer with
  | block front full => exact h
  | skip front room skips freed =>
      obtain ⟨hn, hid, hnone, hunblocked⟩ := hc.front front
      rw [← hid] at hnone hunblocked
      exact Timing.skip h hnone rfl rfl (hc.parents_ended hunblocked)
  | start front room planned starts takes =>
      obtain ⟨hn, hid, hnone, hunblocked⟩ := hc.front front
      have hstart := Timing.start h hnone rfl rfl (hc.parents_ended hunblocked) hfit
      exact hstart.later (steady.takes takes)
  | gather front room planned gathers gives registered =>
      obtain ⟨hn, hid, hnone, hunblocked⟩ := hc.front front
      have hstart := Timing.start h hnone rfl rfl (hc.parents_ended hunblocked) hfit
      exact hstart.later (steady.gives gives)

theorem close {event : Event} (hc : Coherent s m) (h : Punctual s m) (closes : Closes event m m') :
    Punctual s m' := by
  obtain ⟨arrives, found, closed⟩ := closes
  obtain ⟨r, memory, hr, hstart, hspares, rfl⟩ := closed
  obtain ⟨hn, hid, hrunning, hclass⟩ := hc.arriving arrives found
  rw [← hid] at hrunning
  exact Timing.close h hr (Record.finish_of_running hrunning hr)

/-- **Every move keeps the records a schedule.** -/
theorem move (steady : Kernel.Steady κ) (hc : Coherent s m) (h : Punctual s m) (move : Move m m') :
    Punctual s m' := by
  cases move with
  | wake => exact h
  | offer hm => exact offer steady hc h hm
  | leave queue => exact h
  | handBack hm => cases hm; exact h
  | close hm => exact close hc h hm
  | drop hm => exact absurd hm hc.not_drops
  | free hm => cases hm; exact h
  | remove hm => cases hm; exact h
  | settle hm => cases hm <;> exact h

theorem moves (steady : Kernel.Steady κ) (hc : Coherent s m) (h : Punctual s m)
    (moves : ReflTransGen Move m m') : Punctual s m' := by
  induction moves with
  | refl => exact h
  | tail hmoves hm ih => exact ih.move steady (hc.moves hmoves) hm

end Punctual

end TraceReplay
