/-
**Who holds a node in flight.**

While a node is in flight exactly one thing in the engine remembers it: the context of a token, or a
handle.  `Custody` says so, together with what follows for the log of requests: every request that was
made has either come back or is remembered under the event that it is to come back with.  So the engine
is prepared for exactly the events that are owed to it.

Main definitions:

* `Issued.completion`, `owed` — the event that a request is to come back with, and those of a log;
* `Outstanding` — a completion that is still to come;
* `holders`, `tracked` — how often a node, and an event, is remembered;
* `Custody` — what is remembered fits the records and the log.

Main results:

* `Custody.start`, `Custody.gather`, `Custody.close_token`, `Custody.close_handle`, `Custody.skip` —
  requests and completions keep it;
* `Custody.of_arrives` — an event that is taken belongs to a node in flight;
* `Custody.of_outstanding`, `Custody.outstanding_of_running` — what is outstanding is waited for, and
  something is outstanding for every node in flight;
* `Custody.outstanding_ne` — every handle is the only one of its node.
-/

import TraceReplay.Proofs.Engine.Lifecycle
import TraceReplay.Proofs.Engine.Move

set_option relaxedAutoImplicit false
set_option autoImplicit false

namespace TraceReplay

/-! ### What is owed and what is remembered -/

/-- The event that a request is to come back with. -/
def Issued.completion : Issued → Event
  | .operation token what => what.expected.event token
  | .gathering handle _ => .collectiveFinished handle

theorem Issued.completion_ne_wake (r : Issued) : r.completion ≠ .wake := by
  cases r with
  | operation token what => cases what <;> rintro ⟨⟩
  | gathering handle what => rintro ⟨⟩

/-- The events that the requests of a log are to come back with. -/
def owed (asked : Array (NodeId × Issued)) : List Event := asked.toList.map fun r => r.2.completion

@[simp] theorem owed_push (asked : Array (NodeId × Issued)) (id : NodeId) (r : Issued) :
    owed (asked.push (id, r)) = owed asked ++ [r.completion] := by
  simp [owed]

theorem count_wake_owed (asked : Array (NodeId × Issued)) : (owed asked).count .wake = 0 := by
  rw [List.count_eq_zero, owed, List.mem_map]
  rintro ⟨r, -, hr⟩
  exact r.2.completion_ne_wake hr

/-- An event is outstanding if it is owed more often than it was delivered. -/
def Outstanding (delivered : List Event) (asked : Array (NodeId × Issued)) (event : Event) : Prop :=
  delivered.count event < (owed asked).count event

theorem Outstanding.ne_wake {delivered : List Event} {asked : Array (NodeId × Issued)}
    {event : Event} (h : Outstanding delivered asked event) : event ≠ .wake := by
  rintro rfl
  rw [Outstanding, count_wake_owed] at h
  omega

/-- The number of requests of a log that were made for a node. -/
def requestsFor (asked : Array (NodeId × Issued)) (id : NodeId) : Nat :=
  asked.toList.countP fun r => r.1 = id

@[simp] theorem requestsFor_push (asked : Array (NodeId × Issued)) (id id' : NodeId) (r : Issued) :
    requestsFor (asked.push (id, r)) id' = requestsFor asked id' + if id = id' then 1 else 0 := by
  simp [requestsFor, List.countP_append, List.countP_cons]

/-- How many tokens and handles belong to a node. -/
def holders (f : InFlight) (h : Gatherings) (id : NodeId) : Nat :=
  (f.contexts.count fun _ context => context.node = id) + h.handles.count fun _ node => node = id

/-- How many tokens and handles wait for an event. -/
def tracked (f : InFlight) (h : Gatherings) (event : Event) : Nat :=
  (f.contexts.count fun token context => context.expected.event ⟨token⟩ = event) +
    h.handles.count fun handle _ => .collectiveFinished ⟨handle⟩ = event

/-- Whether a node has a record of something asked of the kernel. -/
def Record.asked (records : SortedMap NodeId Record) (id : NodeId) : Bool :=
  (records.find? id).any fun r => r.operatorType ≠ .invalid

/-- The number of nodes that ended after something had been asked of the kernel for them. -/
def Record.completions (records : SortedMap NodeId Record) : Nat :=
  records.count fun _ r => r.finish.isSome && r.operatorType ≠ .invalid

/-! ### Custody -/

/-- What is remembered fits the records and the log. -/
structure Custody (g₀ : Graph) (records : SortedMap NodeId Record) (f : InFlight) (h : Gatherings)
    (asked : Array (NodeId × Issued)) (delivered : List Event) : Prop where
  /-- A node in flight is remembered once, others are not. -/
  held : ∀ id, holders f h id = if Record.running records id then 1 else 0
  /-- A node with a handle has no other, and its class is known. -/
  outstanding : ∀ id, h.outstanding.find? id =
    if (h.handles.count fun _ node => node = id) = 0 then none
    else (g₀.lookup id).map fun n => (n.nodeClass, 1)
  classes : ∀ token context, f.contexts.find? token = some context →
    ∃ n, g₀.lookup context.node = some n ∧ context.nodeClass = n.nodeClass
  /-- Tokens are new. -/
  fresh : ∀ token, f.issued ≤ token → f.contexts.find? token = none
  /-- What is owed was delivered or is remembered. -/
  ledger : ∀ event, event ≠ .wake →
    (owed asked).count event = delivered.count event + tracked f h event
  /-- Something was asked of the kernel for every node in flight. -/
  busy : ∀ id r, records.find? id = some r → r.finish = none → r.operatorType ≠ .invalid
  /-- One request is made for a node that is not skipped. -/
  requested : ∀ id, requestsFor asked id = if Record.asked records id then 1 else 0
  /-- Every completion ended a node. -/
  completed : (delivered.countP fun event => event ≠ .wake) = Record.completions records

namespace Custody

variable {g₀ : Graph} {records : SortedMap NodeId Record} {f : InFlight} {h : Gatherings}
variable {asked : Array (NodeId × Issued)} {delivered : List Event} {id : NodeId} {n : Node}

theorem initial (g₀ : Graph) : Custody g₀ ∅ {} {} #[] [] := by
  refine ⟨fun id => rfl, fun id => rfl, fun token context hc => ?_, fun token _ => rfl,
    fun event _ => rfl, fun id r hr => ?_, fun id => rfl, rfl⟩
  · cases hc
  · cases hr

/-- A wake brings back nothing. -/
theorem wake (hc : Custody g₀ records f h asked delivered) :
    Custody g₀ records f h asked (.wake :: delivered) :=
  { hc with
    ledger := fun event hne => by
      rw [List.count_cons_of_ne hne.symm]
      exact hc.ledger event hne
    completed := by
      rw [List.countP_cons_of_neg (by simp)]
      exact hc.completed }

/-- Nothing is remembered of a node that has no record. -/
theorem holders_of_none (hc : Custody g₀ records f h asked delivered)
    (hnone : records.find? id = none) : holders f h id = 0 := by
  rw [hc.held, Record.running_of_none hnone]
  rfl

/-- A skipped node is neither asked for nor remembered. -/
theorem skip (hc : Custody g₀ records f h asked delivered) (hnone : records.find? id = none)
    {r : Record} (hr : r.finish.isSome = true) (htype : r.operatorType = .invalid) :
    Custody g₀ (records.insert id r) f h asked delivered :=
  { hc with
    held := by
      intro id'
      rw [hc.held id', Record.running_insert]
      by_cases heq : id' = id
      · subst heq
        simp [Record.running_of_none hnone, Option.isNone_eq_false_iff.2 hr]
      · simp [heq]
    busy := by
      intro id' r' hr' hfinish
      rcases SortedMap.eq_or_find?_of_insert hr' with ⟨rfl, rfl⟩ | hr'
      · rw [hfinish] at hr
        cases hr
      · exact hc.busy id' r' hr' hfinish
    requested := by
      intro id'
      rw [hc.requested id', Record.asked, Record.asked, SortedMap.find?_insert]
      by_cases heq : id' = id
      · subst heq
        simp [hnone, htype]
      · simp [heq]
    completed := by
      rw [hc.completed, Record.completions, Record.completions, SortedMap.count_insert_of_none hnone]
      simp [htype] }

/-! ### Requests -/

/-- A node is issued, and what is remembered grows by the event that is now owed. -/
theorem issue (hc : Custody g₀ records f h asked delivered) (hnone : records.find? id = none)
    {r : Record} (hr : r.finish = none) (htype : r.operatorType ≠ .invalid) {request : Issued}
    {f' : InFlight} {h' : Gatherings}
    (hholders : ∀ id', holders f' h' id' = holders f h id' + if id = id' then 1 else 0)
    (htracked : ∀ event, tracked f' h' event =
      tracked f h event + if request.completion = event then 1 else 0)
    (outstanding : ∀ id, h'.outstanding.find? id =
      if (h'.handles.count fun _ node => node = id) = 0 then none
      else (g₀.lookup id).map fun n => (n.nodeClass, 1))
    (classes : ∀ token context, f'.contexts.find? token = some context →
      ∃ n, g₀.lookup context.node = some n ∧ context.nodeClass = n.nodeClass)
    (fresh : ∀ token, f'.issued ≤ token → f'.contexts.find? token = none) :
    Custody g₀ (records.insert id r) f' h' (asked.push (id, request)) delivered where
  outstanding := outstanding
  classes := classes
  fresh := fresh
  held := by
    intro id'
    rw [hholders, Record.running_insert]
    by_cases heq : id' = id
    · subst heq
      simp [hc.holders_of_none hnone, hr]
    · simp [hc.held id', heq, Ne.symm heq]
  ledger := by
    intro event hne
    rw [owed_push, List.count_append, hc.ledger event hne, htracked]
    simp only [List.count_singleton, beq_iff_eq]
    omega
  busy := by
    intro id' r' hr' hfinish
    rcases SortedMap.eq_or_find?_of_insert hr' with ⟨rfl, rfl⟩ | hr'
    · exact htype
    · exact hc.busy id' r' hr' hfinish
  requested := by
    intro id'
    rw [requestsFor_push, hc.requested id', Record.asked, Record.asked, SortedMap.find?_insert]
    by_cases heq : id' = id
    · subst heq
      simp [hnone, htype]
    · simp [heq, Ne.symm heq]
  completed := by
    rw [hc.completed, Record.completions, Record.completions, SortedMap.count_insert_of_none hnone]
    simp [hr]

/-- An operation goes out under a new token. -/
theorem start (hc : Custody g₀ records f h asked delivered) (hnone : records.find? id = none)
    (hn : g₀.lookup id = some n) {r : Record} (hr : r.finish = none)
    (htype : r.operatorType ≠ .invalid) (operation : Operation) :
    Custody g₀ (records.insert id r) (f.insert ⟨id, n.nodeClass, operation.expected⟩).2 h
      (asked.push (id, .operation ⟨f.issued⟩ operation)) delivered := by
  have hnew := hc.fresh f.issued (Nat.le_refl _)
  refine hc.issue hnone hr htype (fun id' => ?_) (fun event => ?_) hc.outstanding ?_ ?_
  · simp only [holders, InFlight.insert, SortedMap.count_insert_of_none hnew, decide_eq_true_eq]
    omega
  · simp only [tracked, InFlight.insert, SortedMap.count_insert_of_none hnew, Issued.completion]
    by_cases heq : operation.expected.event ⟨f.issued⟩ = event
    · simp only [heq, decide_true, ↓reduceIte]
      omega
    · simp [heq]
  · intro token context hcontext
    rcases SortedMap.eq_or_find?_of_insert hcontext with ⟨rfl, rfl⟩ | hcontext
    · exact ⟨n, hn, rfl⟩
    · exact hc.classes token context hcontext
  · intro token htoken
    simp only [InFlight.insert] at htoken ⊢
    rw [SortedMap.find?_insert_of_ne _ _ (by omega)]
    exact hc.fresh token (by omega)

/-- A node that has no record has no handle. -/
theorem outstanding_of_none (hc : Custody g₀ records f h asked delivered)
    (hnone : records.find? id = none) :
    (h.handles.count fun _ node => node = id) = 0 ∧ h.outstanding.find? id = none := by
  have hhandles : (h.handles.count fun _ node => node = id) = 0 := by
    have := hc.holders_of_none hnone
    rw [holders] at this
    omega
  refine ⟨hhandles, ?_⟩
  rw [hc.outstanding id, if_pos hhandles]

/-- A collective goes out under a handle that is not out. -/
theorem gather (hc : Custody g₀ records f h asked delivered) (hnone : records.find? id = none)
    (hn : g₀.lookup id = some n) {r : Record} (hr : r.finish = none)
    (htype : r.operatorType ≠ .invalid) {handle : Handle} {h' : Gatherings}
    (registered : h.register handle id n.nodeClass = .ok h') (gathering : Gathering) :
    Custody g₀ (records.insert id r) f h' (asked.push (id, .gathering handle gathering))
      delivered := by
  obtain ⟨hhandles, hout⟩ := hc.outstanding_of_none hnone
  rw [Gatherings.register, SortedMap.contains] at registered
  cases hnew : h.handles.find? handle.index with
  | some id' => simp [hnew] at registered
  | none =>
      simp only [hnew, Option.isSome_none, Bool.false_eq_true, ↓reduceIte, hout, Option.getD_none,
        Nat.zero_add, Except.ok.injEq] at registered
      subst registered
      refine hc.issue hnone hr htype (fun id' => ?_) (fun event => ?_) (fun id' => ?_) hc.classes
        hc.fresh
      · simp only [holders, SortedMap.count_insert_of_none hnew, decide_eq_true_eq]
        omega
      · simp only [tracked, SortedMap.count_insert_of_none hnew, Issued.completion]
        by_cases heq : .collectiveFinished handle = event
        · simp only [heq, decide_true, ↓reduceIte]
          omega
        · simp [heq]
      · simp only [SortedMap.count_insert_of_none hnew, SortedMap.find?_insert, decide_eq_true_eq]
        by_cases heq : id' = id
        · subst heq
          simp [hn]
        · simp [heq, Ne.symm heq, hc.outstanding id']

/-! ### Completions -/

/-- A node in flight ends, and what is remembered shrinks by the event that was delivered. -/
theorem close (hc : Custody g₀ records f h asked delivered) {r : Record}
    (hr : records.find? id = some r) (hrunning : r.finish = none) (tick : Tick) {event : Event}
    (hne : event ≠ .wake) {f' : InFlight} {h' : Gatherings}
    (hholders : ∀ id', holders f' h' id' + (if id = id' then 1 else 0) = holders f h id')
    (htracked : ∀ event', tracked f' h' event' + (if event = event' then 1 else 0) =
      tracked f h event')
    (outstanding : ∀ id, h'.outstanding.find? id =
      if (h'.handles.count fun _ node => node = id) = 0 then none
      else (g₀.lookup id).map fun n => (n.nodeClass, 1))
    (classes : ∀ token context, f'.contexts.find? token = some context →
      ∃ n, g₀.lookup context.node = some n ∧ context.nodeClass = n.nodeClass)
    (fresh : ∀ token, f'.issued ≤ token → f'.contexts.find? token = none) :
    Custody g₀ (records.insert id { r with finish := some tick }) f' h' asked
      (event :: delivered) where
  outstanding := outstanding
  classes := classes
  fresh := fresh
  held := by
    intro id'
    -- the only thing that remembered the node is gone, the others stay
    have hcount := hholders id'
    rw [hc.held id'] at hcount
    rw [Record.running_insert]
    by_cases heq : id' = id
    · subst heq
      simp only [Record.running, hr, Option.any_some, hrunning, Option.isNone_none, ↓reduceIte] at hcount
      simp
      omega
    · simpa [heq, Ne.symm heq] using hcount
  ledger := by
    intro event' hne'
    rw [hc.ledger event' hne', List.count_cons, ← htracked event']
    simp only [beq_iff_eq]
    omega
  busy := by
    intro id' r' hr' hfinish
    rcases SortedMap.eq_or_find?_of_insert hr' with ⟨rfl, rfl⟩ | hr'
    · cases hfinish
    · exact hc.busy id' r' hr' hfinish
  requested := by
    intro id'
    rw [hc.requested id', Record.asked, Record.asked, SortedMap.find?_insert]
    by_cases heq : id' = id
    · subst heq
      simp [hr]
    · simp [heq]
  completed := by
    have hcount := SortedMap.count_insert_of_some (v := { r with finish := some tick })
      (p := fun _ r => r.finish.isSome && r.operatorType ≠ .invalid) hr
    rw [List.countP_cons_of_pos (by simpa using hne), hc.completed, Record.completions,
      Record.completions]
    simp [hrunning, hc.busy id r hr hrunning] at hcount ⊢
    omega

/-- The event of a token ends its node. -/
theorem close_token (hc : Custody g₀ records f h asked delivered) {token : Token}
    {context : Context} (out : f.contexts.find? token.index = some context) {r : Record}
    (hr : records.find? context.node = some r) (hrunning : r.finish = none) (tick : Tick) :
    Custody g₀ (records.insert context.node { r with finish := some tick })
      { f with contexts := f.contexts.erase token.index } h asked
      (context.expected.event token :: delivered) := by
  obtain ⟨index⟩ := token
  refine hc.close hr hrunning tick ?_ (fun id' => ?_) (fun event => ?_) hc.outstanding ?_ ?_
  · cases context.expected <;> rintro ⟨⟩
  · have := SortedMap.count_erase_add (p := fun _ context => context.node = id') out
    simp only [holders, decide_eq_true_eq] at this ⊢
    omega
  · have := SortedMap.count_erase_add
      (p := fun token context => context.expected.event ⟨token⟩ = event) out
    simp only [tracked, decide_eq_true_eq] at this ⊢
    omega
  · intro token' context' hcontext
    rw [SortedMap.find?_erase] at hcontext
    split at hcontext
    next => cases hcontext
    next => exact hc.classes token' context' hcontext
  · intro token' htoken
    rw [SortedMap.find?_erase]
    split
    next => rfl
    next => exact hc.fresh token' htoken

/-- The event of a handle ends its node. -/
theorem close_handle (hc : Custody g₀ records f h asked delivered) {handle : Handle}
    (out : h.handles.find? handle.index = some id) {r : Record} (hr : records.find? id = some r)
    (hrunning : r.finish = none) (tick : Tick) :
    Custody g₀ (records.insert id { r with finish := some tick }) f
      { handles := h.handles.erase handle.index, outstanding := h.outstanding.erase id } asked
      (.collectiveFinished handle :: delivered) := by
  obtain ⟨index⟩ := handle
  -- the handle is the only one of its node, so the node is forgotten with it
  have hsum := hc.held id
  have herase (id' : NodeId) := SortedMap.count_erase_add (p := fun _ node => node = id') out
  refine hc.close hr hrunning tick (by rintro ⟨⟩) (fun id' => ?_) (fun event => ?_) (fun id' => ?_)
    hc.classes hc.fresh
  · have := herase id'
    simp only [holders, decide_eq_true_eq] at this ⊢
    omega
  · have := SortedMap.count_erase_add
      (p := fun handle _ => .collectiveFinished ⟨handle⟩ = event) out
    simp only [tracked, decide_eq_true_eq] at this ⊢
    omega
  · have := herase id'
    rw [SortedMap.find?_erase]
    by_cases heq : id' = id
    · subst heq
      simp only [holders, Record.running, hr, Option.any_some, hrunning, Option.isNone_none,
        decide_true, ↓reduceIte] at hsum this ⊢
      rw [if_pos (by omega)]
    · simp only [heq, Ne.symm heq, decide_false, Bool.false_eq_true, ↓reduceIte, Nat.add_zero] at this ⊢
      rw [this, hc.outstanding id']

/-- A node that is remembered is in flight. -/
theorem running_of_holders (hc : Custody g₀ records f h asked delivered)
    (hpos : 0 < holders f h id) : Record.running records id = true := by
  have := hc.held id
  by_cases hrunning : Record.running records id = true
  · exact hrunning
  · rw [if_neg hrunning] at this
    omega

/-- An outstanding event is waited for, by a token or by a handle. -/
theorem of_outstanding (hc : Custody g₀ records f h asked delivered) {event : Event}
    (hout : Outstanding delivered asked event) :
    (∃ token context, f.contexts.find? token = some context ∧
        context.expected.event ⟨token⟩ = event) ∨
      ∃ handle id, h.handles.find? handle = some id ∧ .collectiveFinished ⟨handle⟩ = event := by
  have hledger := hc.ledger event hout.ne_wake
  rw [Outstanding] at hout
  rw [tracked] at hledger
  -- what is owed and was not delivered is remembered, by one of the two
  have hpos : 0 < (f.contexts.count fun token context => context.expected.event ⟨token⟩ = event) ∨
      0 < h.handles.count fun handle _ => .collectiveFinished ⟨handle⟩ = event := by omega
  refine hpos.imp (fun hpos => ?_) fun hpos => ?_
  · obtain ⟨token, context, hfind, heq⟩ := SortedMap.count_pos_iff.1 hpos
    exact ⟨token, context, hfind, of_decide_eq_true heq⟩
  · obtain ⟨handle, id, hfind, heq⟩ := SortedMap.count_pos_iff.1 hpos
    exact ⟨handle, id, hfind, of_decide_eq_true heq⟩

/-- An event that a token or a handle waits for is outstanding. -/
theorem outstanding_of_tracked (hc : Custody g₀ records f h asked delivered) {event : Event}
    (hne : event ≠ .wake) (hpos : 0 < tracked f h event) : Outstanding delivered asked event := by
  have := hc.ledger event hne
  unfold Outstanding
  omega

theorem outstanding_of_handle (hc : Custody g₀ records f h asked delivered) {handle : Nat}
    {id : NodeId} (out : h.handles.find? handle = some id) :
    Outstanding delivered asked (.collectiveFinished ⟨handle⟩) := by
  refine hc.outstanding_of_tracked (by rintro ⟨⟩) ?_
  have : 0 < h.handles.count fun handle' _ =>
      Event.collectiveFinished ⟨handle'⟩ = .collectiveFinished ⟨handle⟩ :=
    SortedMap.count_pos_iff.2 ⟨_, _, out, decide_eq_true rfl⟩
  unfold tracked
  omega

theorem outstanding_of_context (hc : Custody g₀ records f h asked delivered) {token : Nat}
    {context : Context} (out : f.contexts.find? token = some context) :
    Outstanding delivered asked (context.expected.event ⟨token⟩) := by
  refine hc.outstanding_of_tracked (by cases context.expected <;> rintro ⟨⟩) ?_
  have : 0 < f.contexts.count fun token' context' =>
      context'.expected.event ⟨token'⟩ = context.expected.event ⟨token⟩ :=
    SortedMap.count_pos_iff.2 ⟨_, _, out, decide_eq_true rfl⟩
  unfold tracked
  omega

/-- Something is outstanding for every node in flight. -/
theorem outstanding_of_running (hc : Custody g₀ records f h asked delivered)
    (hrunning : Record.running records id = true) : ∃ event, Outstanding delivered asked event := by
  have hheld := hc.held id
  rw [if_pos hrunning, holders] at hheld
  -- the node is remembered once, by a token or by a handle
  have hpos : (0 < f.contexts.count fun _ context => context.node = id) ∨
      0 < h.handles.count fun _ node => node = id := by omega
  rcases hpos with hpos | hpos
  · obtain ⟨token, context, out, -⟩ := SortedMap.count_pos_iff.1 hpos
    exact ⟨_, hc.outstanding_of_context out⟩
  · obtain ⟨handle, node, out, -⟩ := SortedMap.count_pos_iff.1 hpos
    exact ⟨_, hc.outstanding_of_handle out⟩

theorem running_of_context (hc : Custody g₀ records f h asked delivered) {token : Nat}
    {context : Context} (out : f.contexts.find? token = some context) :
    Record.running records context.node = true := by
  refine hc.running_of_holders ?_
  have : 0 < f.contexts.count fun _ context' => context'.node = context.node :=
    SortedMap.count_pos_iff.2 ⟨_, _, out, decide_eq_true rfl⟩
  unfold holders
  omega

theorem running_of_handle (hc : Custody g₀ records f h asked delivered) {handle : Nat}
    (out : h.handles.find? handle = some id) : Record.running records id = true := by
  refine hc.running_of_holders ?_
  have : 0 < h.handles.count fun _ node => node = id :=
    SortedMap.count_pos_iff.2 ⟨_, _, out, decide_eq_true rfl⟩
  unfold holders
  omega

/-- What is outstanding belongs to a node in flight. -/
theorem running_of_outstanding (hc : Custody g₀ records f h asked delivered) {event : Event}
    (hout : Outstanding delivered asked event) : ∃ id, Record.running records id = true := by
  rcases hc.of_outstanding hout with ⟨token, context, out, -⟩ | ⟨handle, id, out, -⟩
  · exact ⟨_, hc.running_of_context out⟩
  · exact ⟨_, hc.running_of_handle out⟩

/-- An event that is taken belongs to a node in flight, which comes back with its class. -/
theorem of_arrives {w w' : Workload} {event : Event} {c : NodeClass}
    (hc : Custody g₀ records w.inFlight w.gatherings asked delivered)
    (arrives : Arrives w event id c w') :
    Record.running records id = true ∧ ∃ n, g₀.lookup id = some n ∧ c = n.nodeClass := by
  cases arrives with
  | token out => exact ⟨hc.running_of_context out, hc.classes _ _ out⟩
  | handle out last =>
      refine ⟨hc.running_of_handle out, ?_⟩
      rw [hc.outstanding id] at last
      split at last
      · cases last
      · obtain ⟨n, hn, hlast⟩ := Option.map_eq_some_iff.1 last
        cases hlast
        exact ⟨n, hn, rfl⟩

/-- Every handle is the only one of its node. -/
theorem outstanding_ne {c : NodeClass} {k : Nat}
    (hc : Custody g₀ records f h asked delivered) (id : NodeId) :
    h.outstanding.find? id ≠ some (c, k + 2) := by
  intro hout
  rw [hc.outstanding id] at hout
  split at hout
  · cases hout
  · obtain ⟨n, -, hn⟩ := Option.map_eq_some_iff.1 hout
    cases hn

end Custody

end TraceReplay
