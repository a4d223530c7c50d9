/-
**Watching the queue.**

Which nodes are issued or skipped, and which join the queue, cannot be read off the states between calls
once a call does several of these things.  Here the engine is run along with a list of what happens to
its queue: a drain says which node it handles and which nodes are queued after that, a completion says
which children it queues.  What is seen is taken from the queue itself, before and after.  Watching
changes nothing: without the list, the watched engine is the engine.

Main definitions:

* `Happening` — a node is handled, or nodes are queued together;
* `handled`, `entered` — the nodes of some happenings in their order;
* `Engine.watchedDrain`, `Engine.watchedCall` — the engine, with the happenings;
* `Chronicle` — a run in which no call returns an error, with its happenings.

Main results:

* `Engine.watchedCall_eq` — watching changes nothing;
* `Chronicle.run`, `Run.chronicle` — the runs without errors are those with a chronicle.
-/

import TraceReplay.Proofs.Engine.Run

set_option relaxedAutoImplicit false
set_option autoImplicit false

namespace TraceReplay

/-! ### Happenings -/

/-- What happens to the queue. -/
inductive Happening where
  /-- A node is issued or skipped. -/
  | handled (id : NodeId)
  /-- Nodes join the queue together. -/
  | queued (ids : List NodeId)
  deriving DecidableEq, Repr

/-- The nodes that are issued or skipped, in their order. -/
def handled (hs : List Happening) : List NodeId :=
  hs.flatMap fun
    | .handled id => [id]
    | .queued _ => []

/-- The nodes that join the queue, in their order. -/
def entered (hs : List Happening) : List NodeId :=
  hs.flatMap fun
    | .handled _ => []
    | .queued ids => ids

section

variable (hs hs' : List Happening) (id : NodeId) (ids : List NodeId)

@[simp] theorem handled_append : handled (hs ++ hs') = handled hs ++ handled hs' :=
  List.flatMap_append

@[simp] theorem entered_append : entered (hs ++ hs') = entered hs ++ entered hs' :=
  List.flatMap_append

@[simp] theorem handled_handled : handled [.handled id] = [id] := rfl

@[simp] theorem handled_queued : handled [.queued ids] = [] := rfl

@[simp] theorem entered_handled : entered [.handled id] = [] := rfl

@[simp] theorem entered_queued : entered [.queued ids] = ids := by simp [entered]

end

namespace Engine

variable {κ : Type} [Kernel κ] {β : Type}

/-! ### The watched engine -/

/-- The nodes of the queue that were not in it before. -/
def newcomers (before after : Workload) : List NodeId :=
  after.graph.ready.filter fun id => id ∉ before.graph.ready

/-- An action, with the nodes that join the queue. -/
def joining (act : Act κ Unit) : Act κ (List NodeId) := do
  let before ← workloadOf
  act
  let after ← workloadOf
  return newcomers before after

/-- A drain with some fuel, with what happens. -/
def watchedDrainFrom : Nat → List NodeId → Act κ (List Happening)
  | 0, blocked => do
      handBack blocked
      return []
  | fuel + 1, blocked => do
      match ← takeReady with
      | none =>
          handBack blocked
          return []
      | some id =>
          let n ← lookup id
          if ← onPool (SlotPool.check n.nodeClass) then
            let ids ← joining (issue id)
            let rest ← watchedDrainFrom fuel blocked
            return .handled id :: .queued ids :: rest
          else watchedDrainFrom fuel (blocked ++ [id])

/-- A drain, with what happens. -/
def watchedDrain : Act κ (List Happening) := do
  let w ← workloadOf
  watchedDrainFrom (w.graph.work + 1) []

/-- What is done with an event in a run that has not ended, with what happens. -/
def watchedTurn (event : Event) : Act κ (List Happening) :=
  match event with
  | .wake => watchedDrain
  | _ => do
      match ← arrive event with
      | none => return []
      | some (id, c) =>
          let ids ← joining (retire id c)
          let rest ← watchedDrain
          changeGraph fun g => .ok (g.remove id)
          return .queued ids :: rest

/-- A call, with what happens. -/
def watchedCall (event : Event) : Act κ (List Happening) := do
  if (← workloadOf).isFinished then return []
  let hs ← watchedTurn event
  checkTermination
  return hs

/-! ### Watching changes nothing -/

omit [Kernel κ] in
theorem joining_bind (act : Act κ Unit) (k : Act κ β) :
    (joining act >>= fun _ => k) = act >>= fun _ => k := by
  funext t
  simp only [joining, bind_assoc, pure_bind]
  show (act >>= fun _ => workloadOf >>= fun _ => k) t = _
  exact Action.bind_congr fun _ _ _ => rfl

theorem watchedDrainFrom_bind {fuel : Nat} : ∀ (blocked : List NodeId) (k : Act κ β),
    (watchedDrainFrom fuel blocked >>= fun _ => k) = drainFrom fuel blocked >>= fun _ => k := by
  induction fuel with
  | zero =>
      intro blocked k
      simp only [watchedDrainFrom, drainFrom, bind_assoc, pure_bind]
  | succ fuel ih =>
      intro blocked k
      simp only [watchedDrainFrom, drainFrom, bind_assoc]
      refine congrArg (takeReady >>= ·) (funext fun first => ?_)
      cases first with
      | none => simp only [bind_assoc, pure_bind]
      | some id =>
          simp only [bind_assoc]
          refine congrArg (lookup id >>= ·) (funext fun n => ?_)
          refine congrArg (onPool (SlotPool.check n.nodeClass) >>= ·) (funext fun room => ?_)
          cases room with
          | false => exact ih _ k
          | true =>
              simp only [↓reduceIte, bind_assoc, pure_bind, ih]
              exact joining_bind (issue id) _

theorem watchedDrain_bind (k : Act κ β) :
    (watchedDrain >>= fun _ => k) = drain >>= fun _ => k := by
  simp only [watchedDrain, drain, bind_assoc, watchedDrainFrom_bind]

/-- An event that is not a wake completes the node that it brings back. -/
theorem watchedTurn_eq {event : Event} (hwake : event ≠ .wake) :
    (watchedTurn event : Act κ (List Happening)) = (do
      match ← arrive event with
      | none => return []
      | some (id, c) =>
          let ids ← joining (retire id c)
          let rest ← watchedDrain
          changeGraph fun g => .ok (g.remove id)
          return .queued ids :: rest) := by
  cases event <;> first | exact absurd rfl hwake | rfl

theorem watchedTurn_bind (event : Event) (k : Act κ β) :
    (watchedTurn event >>= fun _ => k) = turn event >>= fun _ => k := by
  by_cases hwake : event = .wake
  · subst hwake
    exact watchedDrain_bind k
  · rw [watchedTurn_eq hwake, turn_eq hwake, bind_assoc, bind_assoc]
    refine congrArg (arrive event >>= ·) (funext fun back => ?_)
    rcases back with _ | ⟨id, c⟩
    · simp only [pure_bind]
    · simp only [finishNode_eq, bind_assoc, pure_bind, watchedDrain_bind]
      exact joining_bind (retire id c) _

/-- **Watching changes nothing.** -/
theorem watchedCall_eq (event : Event) : (watchedCall event >>= fun _ => pure () : Act κ Unit) =
    call event := by
  simp only [watchedCall, call_eq, bind_assoc]
  refine congrArg (workloadOf >>= ·) (funext fun w => ?_)
  cases w.isFinished with
  | true => rfl
  | false =>
      simp only [Bool.false_eq_true, ↓reduceIte, bind_assoc, pure_bind, bind_pure_unit]
      exact watchedTurn_bind event checkTermination

variable {event : Event} {t t' : Logged (Engine κ)}

theorem call_of_watchedCall {hs : List Happening} (h : watchedCall event t = .ok hs t') :
    call event t = .ok () t' := by
  rw [← watchedCall_eq]
  simp only [bind, EStateM.bind, h]
  rfl

theorem exists_watchedCall (h : call event t = .ok () t') : ∃ hs, watchedCall event t = .ok hs t' := by
  rw [← watchedCall_eq] at h
  simp only [bind, EStateM.bind] at h
  cases hwatched : watchedCall event t with
  | ok hs t'' =>
      rw [hwatched] at h
      cases h
      exact ⟨hs, rfl⟩
  | error stop t'' =>
      rw [hwatched] at h
      cases h

end Engine

/-! ### Chronicles -/

variable {κ : Type} [Kernel κ] {s : Setup}

/-- Runs in which no call returns an error, with their calls, latest first, and with what happens,
first to last.  At the beginning the nodes without parents are queued. -/
inductive Chronicle (s : Setup) : List Call → List Happening → Engine κ → Prop
  | start (k : κ) : Chronicle s [] [.queued s.graph.ready] (s.engine k)
  | returns {calls : List Call} {hs hs' : List Happening} {e : Engine κ} {k : κ} {event : Event}
      {j : Array Entry} {t : Logged (Engine κ)} (chronicle : Chronicle s calls hs e)
      (later : Kernel.now e.kernel ≤ Kernel.now k)
      (conforms : event = .wake ∨ Outstanding (calls.map Call.event) e.asked event)
      (call : Engine.watchedCall event ⟨{ e with kernel := k }, j⟩ = .ok hs' t) :
      Chronicle s (⟨event, none⟩ :: calls) (hs ++ hs') t.state

/-- A chronicle is one of a run. -/
theorem Chronicle.run {calls : List Call} {hs : List Happening} {e : Engine κ}
    (chronicle : Chronicle s calls hs e) : Run s calls e := by
  induction chronicle with
  | start k => exact .start k
  | returns chronicle later conforms call ih =>
      exact .returns ih later conforms (Engine.call_of_watchedCall call)

/-- A run without errors has a chronicle. -/
theorem Run.chronicle {calls : List Call} {e : Engine κ} (run : Run s calls e) (quiet : Quiet calls) :
    ∃ hs, Chronicle s calls hs e := by
  induction run with
  | start k => exact ⟨_, .start k⟩
  | returns run later conforms call ih =>
      obtain ⟨hs, chronicle⟩ := ih fun c hc => quiet c (List.mem_cons_of_mem _ hc)
      obtain ⟨hs', hcall⟩ := Engine.exists_watchedCall call
      exact ⟨hs ++ hs', .returns chronicle later conforms hcall⟩
  | fails run later conforms call ih => cases quiet _ List.mem_cons_self

end TraceReplay
