/-
**Calls that return.**

The engine relies on promises, and faults where one is broken.  Towards a kernel that keeps its own it
keeps all of them: an outstanding completion finds its token or handle, the node that comes back has an
open record and a slot, its children have not been told.  What is left are counters that leave their
range.  If moreover every node can be planned, or is skipped when it cannot, and tensor traffic is not
recorded, then no call returns an error.

Main definitions:

* `Kernel.Conforms` — a kernel that is steady and does not fault for other reasons;
* `MintsFresh` — handles that are given out are not out already;
* `Setup.Plannable` — no node makes a drain stop with an error;
* `Setup.Complains` — the errors that a call can return.

Main results:

* `Setup.plannable` — lenient runs are so, and strict ones whose list of bad nodes is empty;
* `Halts.reason`, `AtRest.stops` — for what reasons a call can stop;
* `AtRest.ends_call` — a call returns, or a counter leaves its range;
* `Run.quiet` — no call returns an error.
-/

import TraceReplay.Proofs.Engine.Run

set_option relaxedAutoImplicit false
set_option autoImplicit false

namespace TraceReplay

open Relation
open TraceReplay.Action

/-! ### Summing up -/

/-- No interval ends before it starts. -/
def Forward (l : List Interval) : Prop := ∀ i ∈ l, i.1 ≤ i.2

theorem bounded_merge {l : List Interval} : ∀ {total : Nat} {start finish : Tick},
    start ≤ finish → Forward l → Bounded (BusyTime.merge total start finish l) := by
  induction l with
  | nil => exact fun h _ => (Bounded.sub h).bind fun _ => Bounded.add _ _
  | cons interval l ih =>
      intro total start finish h hl
      obtain ⟨s, f⟩ := interval
      have hrest : Forward l := fun i hi => hl i (List.mem_cons_of_mem _ hi)
      rw [BusyTime.merge]
      split
      · exact ih (Nat.le_trans h (Nat.le_max_left _ _)) hrest
      · exact (Bounded.sub h).bind fun _ => (Bounded.add _ _).bind fun _ =>
          ih (hl _ List.mem_cons_self) hrest

theorem bounded_busyTime {l : List Interval} (h : Forward l) : Bounded (busyTime l) := by
  have hsorted : Forward (l.mergeSort BusyTime.before) := fun i hi => h i (List.mem_mergeSort.1 hi)
  unfold busyTime
  split
  next => exact .ok 0
  next s f rest hsort =>
    rw [hsort] at hsorted
    exact bounded_merge (hsorted _ List.mem_cons_self)
      fun i hi => hsorted i (List.mem_cons_of_mem _ hi)

/-- No record ends before it starts. -/
def Record.Forward (records : List Record) : Prop :=
  ∀ r ∈ records, ∀ finish, r.finish = some finish → r.start ≤ finish

theorem bounded_typeTimes {records : List Record} (h : Record.Forward records) :
    Bounded (typeTimes records) := by
  refine .mapM (fun t => (bounded_busyTime fun i hi => ?_).bind fun _ => .ok _) _
  obtain ⟨r, hr, hi⟩ := List.mem_filterMap.1 hi
  obtain ⟨finish, hfinish, rfl⟩ := Option.map_eq_some_iff.1 hi
  exact h r (List.mem_filter.1 hr).1 finish hfinish

theorem bounded_add {r : Record} (h : ∀ finish, r.finish = some finish → r.start ≤ finish)
    (t : Utilizations.Totals) : Bounded (t.add r) := by
  have hduration : Bounded r.duration := by
    unfold Record.duration
    split
    next => exact .ok _
    next finish hfinish => exact (Bounded.sub (h finish hfinish)).map _
  unfold Utilizations.Totals.add
  split
  · exact .ok _
  · refine hduration.bind fun duration => ?_
    cases duration with
    | none => exact .ok _
    | some duration =>
        dsimp only
        split
        · exact (Bounded.add _ _).bind fun _ => (Bounded.add _ _).bind fun _ => .ok _
        · exact (Bounded.ok _).bind fun _ => (Bounded.add _ _).bind fun _ => .ok _

theorem bounded_ofRecords {records : List Record} (h : Record.Forward records) :
    Bounded (Utilizations.ofRecords records) :=
  (Bounded.foldlM _ fun t r hr => bounded_add (h r hr) t).bind fun _ => .ok _

/-- Summing up a run in which all nodes ended stops with a fault, because a counter leaves its range. -/
theorem isOverflow_of_summarize {s : Statistics} {j : Array Entry} {stop : Stop}
    {t : Logged Statistics} (ended : s.unfinished? = none)
    (h : Statistics.summarize ⟨s, j⟩ = .error stop t) :
    ∃ f, stop = .fault f ∧ (Record.Forward s.records.values → f.isOverflow = true) := by
  suffices hs : Ends Statistics.summarize ⟨s, j⟩ (fun _ _ => True) fun stop _ =>
      ∃ f, stop = .fault f ∧ (Record.Forward s.records.values → f.isOverflow = true) from hs.of_error h
  simp only [Statistics.summarize, ends_bind, ends_get, ends_note, ended]
  cases ht : s.typeTimes with
  | error f => exact ⟨f, rfl, fun hforward => bounded_typeTimes hforward f ht⟩
  | ok typeTimes =>
      cases hu : s.utilizations with
      | error f => exact ⟨f, rfl, fun hforward => bounded_ofRecords hforward f hu⟩
      | ok utilizations =>
          cases hbuilt : s.memory.mapM Statistics.buildTimeline with
          | ok built => trivial
          | error f =>
              refine ⟨f, rfl, fun _ => ?_⟩
              cases hmemory : s.memory with
              | none =>
                  rw [hmemory] at hbuilt
                  cases hbuilt
              | some tracker =>
                  rw [hmemory] at hbuilt
                  exact ((Statistics.bounded_buildTimeline tracker).bind fun _ => .ok _) f hbuilt

/-! ### Kernels and plans -/

/-- A kernel whose clock does not go back while it takes requests, and that faults on a request only
because a counter leaves its range. -/
structure Kernel.Conforms (κ : Type) [Kernel κ] : Prop extends Kernel.Steady κ where
  faults : ∀ {k : κ} {f : Fault}, Kernel.Faults k f → f.isOverflow = true

/-- The handles that were given out between two logs were not out when they were given. -/
def MintsFresh (delivered : List Event) (before after : Array (NodeId × Issued)) : Prop :=
  ∀ (asked : Array (NodeId × Issued)) id handle gathering, before.toList <+: asked.toList →
    (asked.push (id, .gathering handle gathering)).toList <+: after.toList →
      ¬Outstanding delivered asked (.collectiveFinished handle)

/-- Every node can be planned, or is skipped when it cannot, unless a counter leaves its range. -/
def Setup.Plannable (s : Setup) : Prop :=
  ∀ id n x, s.graph.lookup id = some n → s.workload.planOf n = .error (.error x) →
    s.workload.forgives x = true

/-- What is wrong with a node that cannot be planned concerns that node only. -/
theorem Setup.isLocal_of_planOf {s : Setup} {id : NodeId} {n : Node} {x : ReplayError}
    (hn : s.graph.lookup id = some n) (h : s.workload.planOf n = .error (.error x)) :
    x.isLocal = true := by
  obtain ⟨-, group, hw⟩ := s.created_iff
  have sound := s.workload.sound_planOf n
  rw [h, hw] at sound
  rcases sound with hlocal | ⟨p, hp, hsize, -⟩
  · exact hlocal
  · -- the parents of a node of the trace are known
    obtain ⟨hmem, -⟩ := (s.built.lookup_iff id n).1 hn
    have hknown := s.built.parents_known n hmem p (List.mem_append_left _ hp)
    obtain ⟨parent, hparent⟩ := Option.isSome_iff_exists.1 hknown
    replace hsize : s.graph.tensorSizeOf p = none := hsize
    simp [Graph.tensorSizeOf, hparent] at hsize

/-- The errors that a call can return: a node cannot be planned, or its tensor traffic cannot be
recorded, and the run does not forgive that. -/
def Setup.Complains (s : Setup) (x : ReplayError) : Prop :=
  s.workload.forgives x = false ∧
    ((∃ id n, s.graph.lookup id = some n ∧ s.workload.planOf n = .error (.error x)) ∨
      s.config.trackMemory = true ∧ x.isTraffic = true)

/-- Such an error says what is wrong with a node or with tensors. -/
theorem Setup.Complains.isLocal_or_isTraffic {s : Setup} {x : ReplayError} (h : s.Complains x) :
    x.isLocal = true ∨ x.isTraffic = true := by
  obtain ⟨-, ⟨id, n, hn, hplan⟩ | ⟨-, htraffic⟩⟩ := h
  · exact .inl (s.isLocal_of_planOf hn hplan)
  · exact .inr htraffic

/-- There are none if every node can be planned, or is skipped when it cannot, and tensor traffic is not
recorded. -/
theorem Setup.Plannable.not_complains {s : Setup} (h : s.Plannable)
    (untracked : s.config.trackMemory = false) (x : ReplayError) : ¬s.Complains x := by
  rintro ⟨hforgives, ⟨id, n, hn, hplan⟩ | ⟨htracked, -⟩⟩
  · rw [h id n x hn hplan] at hforgives
    cases hforgives
  · rw [untracked] at htracked
    cases htracked

/-- **Every node can be planned, or is skipped when it cannot**, in a lenient run, and in a strict one
whose list of bad nodes is empty. -/
theorem Setup.plannable {s : Setup} (h : s.config.isStrict = false ∨
    Plan.invalidNodes s.config s.graph.tensorSizeOf s.graph.nodes.values = .ok []) :
    s.Plannable := by
  intro id n x hn hplan
  obtain ⟨-, group, hw⟩ := s.created_iff
  have hconfig : s.workload.config = s.config := by rw [hw]; rfl
  have hplan' : Plan.ofNode s.config s.graph.tensorSizeOf n n.nodeClass = .error (.error x) := by
    rw [← hplan, hw]
    rfl
  rcases h with lenient | hnone
  · rw [Workload.forgives, hconfig, lenient, s.isLocal_of_planOf hn hplan]
    rfl
  · have hmem : n ∈ s.graph.nodes.values :=
      List.mem_map.2 ⟨(id, n), (SortedMap.mem_toList_iff _ _ _).2 hn, rfl⟩
    obtain ⟨problem, hproblem, hbad⟩ := Plan.mem_invalidNodes hnone n hmem
    rw [Plan.problem?, hplan'] at hproblem
    cases hproblem
    cases hbad x rfl

/-! ### How calls stop -/

section

variable {κ : Type} {s : Setup} {m : Moment κ} {event : Event}

/-- An outstanding event that brings back a token finds it. -/
theorem Coherent.take_ok (hc : Coherent s m) {token : Token}
    (hout : Outstanding m.delivered m.asked event) (brings : event.token? = some token) (f : Fault) :
    m.workload.inFlight.take token event ≠ .error f := by
  rcases hc.custody.of_outstanding hout with ⟨index, context, out, rfl⟩ | ⟨handle, id, -, rfl⟩
  · have htoken : token = ⟨index⟩ := by
      cases hexpected : context.expected <;> rw [hexpected] at brings <;> cases brings <;> rfl
    subst htoken
    simp [InFlight.take, out]
  · cases brings

/-- An outstanding event that brings back a handle finds it, and its node. -/
theorem Coherent.handle_ok (hc : Coherent s m) {handle : Handle}
    (hout : Outstanding m.delivered m.asked event) (brings : event.handle? = some handle) :
    ∃ id c k, m.workload.gatherings.handles.find? handle.index = some id ∧
      m.workload.gatherings.outstanding.find? id = some (c, k + 1) := by
  rcases hc.custody.of_outstanding hout with ⟨index, context, out, rfl⟩ | ⟨index, id, out, rfl⟩
  · cases hexpected : context.expected <;> rw [hexpected] at brings <;> cases brings
  · cases brings
    obtain ⟨n, -, hn⟩ := hc.present_of_running (hc.custody.running_of_handle out)
    refine ⟨id, n.nodeClass, 0, out, ?_⟩
    have hpos : 0 < m.workload.gatherings.handles.count fun _ node => node = id :=
      SortedMap.count_pos_iff.2 ⟨_, _, out, decide_eq_true rfl⟩
    rw [hc.custody.outstanding id, if_neg (by omega), hn]
    rfl

end

variable {κ : Type} [Kernel κ] {s : Setup} {m m' : Moment κ}

/-- The log of requests only grows. -/
theorem Move.asked_prefix (h : Move m m') : m.asked.toList <+: m'.asked.toList := by
  cases h with
  | offer h =>
      cases h with
      | block => exact List.prefix_rfl
      | skip => exact List.prefix_rfl
      | start => simp
      | gather => simp
  | handBack h => cases h; exact List.prefix_rfl
  | close h => cases h; exact List.prefix_rfl
  | drop h => cases h; exact List.prefix_rfl
  | free h => cases h; exact List.prefix_rfl
  | remove h => cases h; exact List.prefix_rfl
  | settle h => cases h <;> exact List.prefix_rfl
  | _ => exact List.prefix_rfl

theorem Move.asked_prefix_many (h : ReflTransGen Move m m') :
    m.asked.toList <+: m'.asked.toList := by
  induction h with
  | refl => exact List.prefix_rfl
  | tail _ hmove ih => exact ih.trans hmove.asked_prefix

/-- The kernel gives a handle that is out already. -/
def Reissues (m m' : Moment κ) : Prop :=
  ∃ id handle gathering k, Kernel.Gives m.kernel gathering handle k ∧
    m'.asked = m.asked.push (id, .gathering handle gathering) ∧
    Outstanding m.delivered m.asked (.collectiveFinished handle)

/-- A drain stops with an error if a node cannot be planned, and with a fault if a counter leaves its
range, or a handle is given out that is out already. -/
theorem Refuses.reason (hc : Coherent s m) {stop : Stop} (h : Refuses m stop m') :
    (∃ x, stop = .error x ∧ s.Complains x) ∨
      ∃ f, stop = .fault f ∧ (Kernel.Conforms κ → f.isOverflow = true ∨ Reissues m m') := by
  cases h with
  | unknown queue missing => exact absurd missing (hc.lookup_front queue)
  | unplanned front bad unforgiven =>
      obtain ⟨hn, -⟩ := hc.front front
      rw [hc.planOf_eq] at bad
      rw [hc.forgives_eq] at unforgiven
      exact .inl ⟨_, rfl, unforgiven, .inl ⟨_, _, hn, bad⟩⟩
  | @planFault _ id n rest f front bad =>
      have sound := (m.workload.withReady rest).sound_planOf n
      rw [bad] at sound
      cases sound
      exact .inr ⟨_, rfl, fun _ => .inl rfl⟩
  | @freeFault _ id n rest f front bad =>
      obtain ⟨-, hid, hnone, -⟩ := hc.front front
      rw [← hid] at hnone
      obtain ⟨g, hok⟩ := hc.lifecycle.freeable s.built
        (hc.lifecycle.notMem_freed_of_none hnone) rest
      cases bad.symm.trans hok
  | kernelFault bad => exact .inr ⟨_, rfl, fun conforms => .inl (conforms.faults bad)⟩
  | handleTaken gives taken asked =>
      -- a handle that the engine remembers is outstanding
      obtain ⟨node, out⟩ := Option.isSome_iff_exists.1 taken
      exact .inr ⟨_, rfl, fun _ => .inr ⟨_, _, _, _, gives, asked,
        hc.custody.outstanding_of_handle out⟩⟩

/-- **How a call stops.**  An error says what is wrong with a node or with tensors.  Towards a kernel
that keeps its promises a fault says that a counter has left its range, or that a handle was given out
that was out already. -/
theorem Halts.reason (hc : Coherent s m) {event : Event} {stop : Stop} (h : Halts event m stop m') :
    (∃ x, stop = .error x ∧ s.Complains x) ∨
      ∃ f, stop = .fault f ∧ (Kernel.Conforms κ → Punctual s m →
        event = .wake ∨ Outstanding m.delivered m.asked event → f.isOverflow = true ∨
          ∃ m₁, ReflTransGen Move m m₁ ∧ m₁.delivered = event :: m.delivered ∧
            Reissues m₁ m') := by
  cases h with
  | @wake m₁ _ _ same offers refuses =>
      subst same
      have hmoves := (Move.of_offers offers).head (.wake m)
      refine (refuses.reason (hc.moves hmoves)).imp_right ?_
      rintro ⟨f, rfl, hf⟩
      exact ⟨f, rfl, fun conforms _ _ => (hf conforms).imp_right fun reissues =>
        ⟨m₁, hmoves, (Offer.keeps_many offers).delivered, reissues⟩⟩
  | @token m' token f brings bad =>
      refine .inr ⟨f, rfl, fun _ _ allowed => ?_⟩
      rcases allowed with rfl | hout
      · cases brings
      · exact absurd bad (hc.take_ok hout brings f)
  | handle brings bad =>
      refine .inr ⟨_, rfl, fun _ _ allowed => ?_⟩
      rcases allowed with rfl | hout
      · cases brings
      · obtain ⟨id, c, k, hhandle, hnode⟩ := hc.handle_ok hout brings
        rcases bad with bad | ⟨id', hid', bad⟩
        · cases bad.symm.trans hhandle
        · cases hid'.symm.trans hhandle
          exact absurd hnode (bad c k)
  | unknown arrives missing =>
      obtain ⟨hrunning, -⟩ := hc.custody.of_arrives arrives
      obtain ⟨n, hn, -⟩ := hc.present_of_running hrunning
      cases missing.symm.trans hn
  | record arrives found bad =>
      refine .inr ⟨_, rfl, fun _ hp _ => ?_⟩
      obtain ⟨-, hid, hrunning, -⟩ := hc.arriving arrives found
      obtain ⟨r, hr, -⟩ := Record.running_iff.1 hrunning
      rw [← hid] at hr
      exact absurd (hp.begun _ r hr) (Nat.not_le.2 (bad r hr))
  | traffic closes tracked kind unforgiven =>
      rw [hc.forgives_eq] at unforgiven
      exact .inl ⟨_, rfl, unforgiven,
        .inr ⟨Bool.of_not_eq_false fun ht => tracked (hc.untracked ht), kind⟩⟩
  | trafficFault arrives found tracked bad =>
      -- the node is in flight, so that its traffic has begun
      obtain ⟨-, hid, hrunning, -⟩ := hc.arriving arrives found
      rw [← hid] at hrunning
      exact absurd bad (hc.traced _ _ tracked hrunning)
  | release closes closed uses bad =>
      have hslots := (hc.close closes).slots
      rw [closed] at hslots
      exact absurd bad (hslots.holds uses)
  | @freeFault m₁ m' id c f rest closes closed bad =>
      have hlifecycle := (hc.close closes).lifecycle
      rw [closed] at hlifecycle
      obtain ⟨g, hok⟩ := hlifecycle.freeable s.built (hlifecycle.notMem_freed List.mem_cons_self)
        m₁.workload.graph.ready
      cases bad.symm.trans hok
  | @drain m₁ m₂ m₃ _ _ closes frees offers refuses =>
      have hmoves := (Move.of_offers offers).head (.free frees) |>.head (.close closes)
      refine (refuses.reason (hc.moves hmoves)).imp_right ?_
      rintro ⟨f, rfl, hf⟩
      refine ⟨f, rfl, fun conforms _ _ => (hf conforms).imp_right fun reissues =>
        ⟨m₃, hmoves, (Offer.keeps_many offers).delivered.trans ?_, reissues⟩⟩
      cases frees
      exact closes.keeps.1
  | summary turn done idle bad =>
      have hc₁ := hc.moves turn.moves
      obtain ⟨f, rfl, hf⟩ := isOverflow_of_summarize (hc₁.unfinished_eq_none done) bad
      refine .inr ⟨f, rfl, fun conforms hp _ => .inl (hf fun r hr finish hfinish => ?_)⟩
      -- no record ends before it starts, so that no difference is negative
      obtain ⟨⟨id, r'⟩, hmem, rfl⟩ := List.mem_map.1 hr
      have hp₁ := hp.moves conforms.toSteady hc turn.moves
      exact (hp₁.interval id r' finish ((SortedMap.mem_toList_iff _ _ _).1 hmem) hfinish).1

/-- **How a call stops in a run**, if the handles that the kernel gives out are not out already: with an
error that says what is wrong, or because a counter leaves its range. -/
theorem AtRest.stops (conforms : Kernel.Conforms κ) {calls : List Call} (h : AtRest s calls m)
    {event : Event} (allowed : event = .wake ∨ Outstanding (calls.map Call.event) m.asked event)
    {j : Array Entry} {stop : Stop} {t : Logged (Engine κ)}
    (call : Engine.call event ⟨m.toEngine, j⟩ = .error stop t)
    (fresh : MintsFresh (event :: calls.map Call.event) m.asked t.state.asked) :
    (∃ x, stop = .error x ∧ s.Complains x) ∨ ∃ f, stop = .fault f ∧ f.isOverflow = true := by
  obtain ⟨-, m', halts, ht⟩ := Engine.halts_of_error call
  rw [← h.delivered] at allowed fresh
  refine (halts.reason h.coherent).imp_right ?_
  rintro ⟨f, rfl, hf⟩
  refine ⟨f, rfl, ?_⟩
  rcases hf conforms (h.punctual conforms.toSteady) allowed with
    hoverflow | ⟨m₁, hmoves, hdelivered, id, handle, gathering, k, -, hasked, hout⟩
  · exact hoverflow
  · rw [hdelivered] at hout
    have hlog : t.state.asked = m₁.asked.push (id, .gathering handle gathering) := ht ▸ hasked
    exact absurd hout (fresh _ id handle gathering (Move.asked_prefix_many hmoves)
      ⟨[], by rw [hlog, List.append_nil]⟩)

/-- The errors of a run say what is wrong with a node or with tensors. -/
theorem Run.complains {calls : List Call} {e : Engine κ} (run : Run s calls e) :
    ∀ c ∈ calls, ∀ x, c.error = some x → s.Complains x := by
  induction run with
  | start k => exact fun c hc => absurd hc List.not_mem_nil
  | returns run later allowed call ih =>
      intro c hc x hx
      rcases List.mem_cons.1 hc with rfl | hc
      · cases hx
      · exact ih c hc x hx
  | fails run later allowed call ih =>
      intro c hc x hx
      rcases List.mem_cons.1 hc with rfl | hc
      · cases hx
        obtain ⟨m, rfl, h⟩ := run.atRest
        obtain ⟨-, m', halts, -⟩ := Engine.halts_of_error (m := { m with kernel := _ }) call
        obtain ⟨x, hx, hcomplains⟩ | ⟨f, hf, -⟩ := halts.reason (h.later later).coherent
        · cases hx
          exact hcomplains
        · cases hf
      · exact ih c hc x hx

/-- **A call returns, or a counter leaves its range**, if the handles that the kernel gives out are not
out already, every node can be planned or is skipped when it cannot, and tensor traffic is not
recorded. -/
theorem AtRest.ends_call (conforms : Kernel.Conforms κ) (untracked : s.config.trackMemory = false)
    (plannable : s.Plannable) {calls : List Call} (h : AtRest s calls m) {event : Event}
    (allowed : event = .wake ∨ Outstanding (calls.map Call.event) m.asked event) (j : Array Entry) :
    Ends (Engine.call event) ⟨m.toEngine, j⟩ (fun _ _ => True) fun stop t =>
      MintsFresh (event :: calls.map Call.event) m.asked t.state.asked →
        ∃ f, stop = .fault f ∧ f.isOverflow = true := by
  refine ends_iff.2 ⟨fun _ _ _ => trivial, fun stop t hcall fresh => ?_⟩
  obtain ⟨x, -, hcomplains⟩ | hfault := h.stops conforms allowed hcall fresh
  · exact absurd hcomplains (plannable.not_complains untracked x)
  · exact hfault

/-- **No call returns an error** if every node can be planned or is skipped when it cannot, and tensor
traffic is not recorded. -/
theorem Run.quiet (untracked : s.config.trackMemory = false) (plannable : s.Plannable)
    {calls : List Call} {e : Engine κ} (run : Run s calls e) : Quiet calls := by
  intro c hc
  cases herror : c.error with
  | none => rfl
  | some x => exact absurd (run.complains c hc x herror) (plannable.not_complains untracked x)

end TraceReplay
