/-
**The engine.**

The engine replays the graph of one system against a kernel.  It is driven by events: a wake makes it
look for work, every other event completes an operation and then looks for work.  Looking for work is
a *drain*: nodes are taken from the queue until it is empty, those whose resource has room are
issued, and the others are handed back in the order in which they were offered.  When no work is left
and all slots are free the run is summed up, once, and later events are ignored.

Main definitions:

* `Workload` — the state of the engine;
* `Engine` — engine and kernel together, with the requests made so far;
* `Engine.drain`, `Engine.call`, `Engine.fire` — looking for work, an event, and the first wake;
* `Workload.initial` — the state of an engine that has done nothing yet;
* `Workload.create` — the engine of a configuration and a graph.
-/

import TraceReplay.InFlight
import TraceReplay.Kernel.Scripted
import TraceReplay.Plan
import TraceReplay.SlotPool
import TraceReplay.Statistics.Basic
import TraceReplay.Trace.Load

set_option relaxedAutoImplicit false
set_option autoImplicit false

namespace TraceReplay

/-- The state of the engine. -/
structure Workload where
  config : EngineConfig
  graph : Graph
  /-- What the engine is told about the graph. -/
  adapter : Adapter
  pool : SlotPool
  inFlight : InFlight
  gatherings : Gatherings
  statistics : Statistics
  group : Option Group
  /-- The tick at which the run ended. -/
  finishTick : Option Tick

namespace Workload

/-- Whether the run has ended. -/
def isFinished (w : Workload) : Bool := w.finishTick.isSome

/-- Operations asked of the kernel and not yet completed; a collective counts once. -/
def pendingCount (w : Workload) : Nat := w.inFlight.size + w.gatherings.pendingNodes

/-- The report, once the run has ended. -/
def report (w : Workload) : Option Report := w.statistics.report

/-- Whether an error is one that skips its node: it concerns that node only, and the run is
lenient. -/
def forgives (w : Workload) (e : ReplayError) : Bool := !w.config.isStrict && e.isLocal

/-- The group that a configuration's group file gives. -/
def groupOf (files : FileTree) (config : EngineConfig) : Except ReplayError (Option Group) :=
  match config.commGroupFile with
  | none => .ok none
  | some path => Group.load files path config.sysId

/-- The entry about taking part in a group. -/
def groupEntries (config : EngineConfig) (group : Option Group) : List Entry :=
  match group with
  | none => []
  | some g => [.joined config.sysId g.id g.size]

/-- An engine that has done nothing yet. -/
def initial (config : EngineConfig) (graph : Graph) (adapter : Adapter) (group : Option Group) :
    Workload :=
  { config, graph, adapter, group
    pool := .ofCapacity config.resources
    inFlight := {}
    gatherings := {}
    statistics := .ofSystem config.sysId config.trackMemory
    finishTick := none }

/-- The engine of a configuration and a graph, with the entries about its creation. -/
def create (files : FileTree) (config : EngineConfig) (graph : Graph) (adapter : Adapter) :
    Except ReplayError (Workload × List Entry) := do
  config.validate
  let group ← groupOf files config
  return (initial config graph adapter group, groupEntries config group)

end Workload

/-- An engine with its kernel. -/
structure Engine (κ : Type) where
  workload : Workload
  kernel : κ
  /-- Requests made so far, in order, each with the node it was made for. -/
  asked : Array (NodeId × Issued) := #[]

namespace Engine

/-- Requests made so far, in order. -/
def requests {κ : Type} (e : Engine κ) : Array Issued := e.asked.map Prod.snd

variable {κ : Type} [Kernel κ] {α : Type}

/-- Actions of the engine. -/
abbrev Act (κ α : Type) := Action Stop (Engine κ) α

/-! ### Parts -/

/-- The state of the engine. -/
def workloadOf : Act κ Workload := do return (← Action.get).workload

/-- Changes the state of the engine. -/
def updateWorkload (f : Workload → Workload) : Act κ Unit :=
  Action.update fun e => { e with workload := f e.workload }

/-- The current tick. -/
def now : Act κ Tick := do return Kernel.now (← Action.get).kernel

/-- An action on the slots. -/
def onPool (act : Action Fault SlotPool α) : Act κ α :=
  (act.stopAs Stop.fault).on (fun e => e.workload.pool) fun pool e =>
    { e with workload := { e.workload with pool } }

/-- An action on the handles out. -/
def onGatherings (act : Action Fault Gatherings α) : Act κ α :=
  (act.stopAs Stop.fault).on (fun e => e.workload.gatherings) fun gatherings e =>
    { e with workload := { e.workload with gatherings } }

/-- An action on the statistics. -/
def onStatistics (act : Action Stop Statistics α) : Act κ α :=
  act.on (fun e => e.workload.statistics) fun statistics e =>
    { e with workload := { e.workload with statistics } }

/-- An action on the kernel. -/
def onKernel (act : Action Fault κ α) : Act κ α :=
  (act.stopAs Stop.fault).on (fun e => e.kernel) fun kernel e => { e with kernel }

/-- Replaces the graph by what a calculation makes of it. -/
def changeGraph (f : Graph → Except Fault Graph) : Act κ Unit := do
  let w ← workloadOf
  let graph ← Action.lift (orFault (f w.graph))
  updateWorkload fun w => { w with graph }

/-- The node with an id. -/
def lookup (id : NodeId) : Act κ Node := do
  match (← workloadOf).graph.lookup id with
  | some n => return n
  | none => throw (.error (.unknownNode id))

/-! ### Requests -/

/-- Writes down a request that the kernel has taken for a node. -/
def noteRequest (id : NodeId) (r : Issued) : Act κ Unit :=
  Action.update fun e => { e with asked := e.asked.push (id, r) }

/-- Asks the kernel for an operation of a node. -/
def request (id : NodeId) (nodeClass : NodeClass) (operation : Operation) : Act κ Unit := do
  let w ← workloadOf
  let (token, inFlight) := w.inFlight.insert ⟨id, nodeClass, operation.expected⟩
  updateWorkload fun w => { w with inFlight }
  onKernel (Kernel.start token operation)
  noteRequest id (.operation token operation)

/-- Asks the kernel for what gets a handle, on behalf of a node. -/
def gather (id : NodeId) (nodeClass : NodeClass) (gathering : Gathering) : Act κ Unit := do
  let handle ← onKernel (Kernel.gather gathering)
  noteRequest id (.gathering handle gathering)
  let w ← workloadOf
  let gatherings ← Action.lift (orFault (w.gatherings.register handle id nodeClass))
  updateWorkload fun w => { w with gatherings }

/-- Records what the roofline model says about a node, and asks for the time that takes. -/
def requestEstimated (id : NodeId) (nodeClass : NodeClass) (numOps ioSize : Nat) : Act κ Unit := do
  match (← workloadOf).config.roofline with
  | none => throw (.error (.internal s!"node {id} planned for roofline without a model"))
  | some roofline =>
      let estimate ← Action.lift (orFault (roofline.estimate numOps ioSize))
      let w ← workloadOf
      let statistics ← Action.lift (orFault (w.statistics.recordEstimate id estimate))
      updateWorkload fun w => { w with statistics }
      request id nodeClass (.timed estimate.elapsed)

/-- Asks the kernel for whatever a plan comes to. -/
def dispatch (id : NodeId) (nodeClass : NodeClass) : Plan → Act κ Unit
  | .skip => throw (.error (.internal s!"node {id} dispatched with nothing to simulate"))
  | .operation operation => request id nodeClass operation
  | .roofline numOps ioSize => requestEstimated id nodeClass numOps ioSize
  | .collective kind size involvedDims priority => do
      let group := (← workloadOf).group
      gather id nodeClass (.collective { kind, size, involvedDims, group, priority })
  | .timedCollective duration => gather id nodeClass (.timed duration)

/-! ### Issuing -/

/-- Writes a trace line, if trace lines are wanted. -/
def traceLine (entry : Nat → Entry) : Act κ Unit := do
  let w ← workloadOf
  if w.config.traceEnabled then Action.note (entry w.config.sysId)

/-- The plan of a node.  A lenient run skips a node that it cannot plan. -/
def planOf (n : Node) : Act κ Plan := do
  let w ← workloadOf
  match Plan.ofNode w.config (w.adapter.tensorSizeOf w.graph) n n.nodeClass with
  | .ok plan => return plan
  | .error (.error e) =>
      if w.forgives e then
        Action.note (.nodeSkipped w.config.sysId n.id e)
        return .skip
      else throw (.error e)
  | .error (.fault f) => throw (.fault f)

/-- Completes a node that has nothing to simulate. -/
def skip (n : Node) (tick : Tick) : Act κ Unit := do
  updateWorkload fun w => { w with statistics := w.statistics.recordStart n.id .invalid tick }
  onStatistics (Statistics.recordEnd n tick)
  changeGraph fun g => g.freeDependents n.id
  changeGraph fun g => .ok (g.remove n.id)

/-- Issues a node whose resource has room. -/
def issue (id : NodeId) : Act κ Unit := do
  let n ← lookup id
  let plan ← planOf n
  let tick ← now
  traceLine fun sysId => .issue sysId tick n.label
  if plan = .skip then skip n tick
  else
    let c := n.nodeClass
    onPool (SlotPool.occupy id c)
    updateWorkload fun w => { w with statistics := w.statistics.recordStart id (.ofClass c) tick }
    dispatch id c plan

/-- Takes the node at the front of the queue. -/
def takeReady : Act κ (Option NodeId) := do
  match (← workloadOf).graph.takeReady? with
  | none => return none
  | some (id, graph) =>
      updateWorkload fun w => { w with graph }
      return some id

/-- Hands nodes back to the queue, in their order. -/
def handBack (ids : List NodeId) : Act κ Unit :=
  updateWorkload fun w => { w with graph := ids.foldl Graph.pushBack w.graph }

/-- Takes up to `fuel` nodes from the queue; `blocked` are the nodes found blocked so far. -/
def drainFrom : Nat → List NodeId → Act κ Unit
  | 0, blocked => handBack blocked
  | fuel + 1, blocked => do
      match ← takeReady with
      | none => handBack blocked
      | some id =>
          let n ← lookup id
          if ← onPool (SlotPool.check n.nodeClass) then
            issue id
            drainFrom fuel blocked
          else drainFrom fuel (blocked ++ [id])

/-- Issues every node in the queue whose resource has room.  A node enters the queue at most once
while nothing is handed back, so the nodes queued or waiting bound how many are taken. -/
def drain : Act κ Unit := do
  let w ← workloadOf
  drainFrom (w.graph.work + 1) []

/-! ### Completing -/

/-- Closes the record of a node.  A lenient run goes on without tensor traffic that is malformed. -/
def recordEnd (n : Node) (tick : Tick) : Act κ Unit := do
  match ← Action.outcome (onStatistics (Statistics.recordEnd n tick)) with
  | .ok _ => return
  | .error (.error e) =>
      let w ← workloadOf
      if w.forgives e then Action.note (.trafficNotRecorded w.config.sysId n.id e)
      else throw (.error e)
  | .error (.fault f) => throw (.fault f)

/-- Completes a node whose operation came back. -/
def finishNode (id : NodeId) (nodeClass : NodeClass) : Act κ Unit := do
  let tick ← now
  let n ← lookup id
  traceLine fun sysId => .callback sysId tick n.label
  recordEnd n tick
  onPool (SlotPool.release id nodeClass)
  changeGraph fun g => g.freeDependents id
  drain
  changeGraph fun g => .ok (g.remove id)

/-- Ends the run, if no work is left and all slots are free. -/
def checkTermination : Act κ Unit := do
  let w ← workloadOf
  if w.adapter.hasRemainingWork w.graph || !w.pool.isIdle then return
  let tick ← now
  updateWorkload fun w => { w with finishTick := some tick }
  Action.note (.finished w.config.sysId tick)
  let _ ← onStatistics Statistics.summarize
  onStatistics Statistics.noteReport

/-- Completes the operation that came back with a token. -/
def completeToken (token : Token) (event : Event) : Act κ Unit := do
  let w ← workloadOf
  let (context, inFlight) ← Action.lift (orFault (w.inFlight.take token event))
  updateWorkload fun w => { w with inFlight }
  finishNode context.node context.nodeClass

/-- Completes the node of a handle that finished, if that was its last handle. -/
def completeHandle (handle : Handle) : Act κ Unit := do
  match ← onGatherings (Gatherings.complete handle) with
  | none => return
  | some (id, nodeClass) => finishNode id nodeClass

/-- Handles an event, unless the run has ended. -/
def call (event : Event) : Act κ Unit := do
  if (← workloadOf).isFinished then return
  match event with
  | .wake => drain
  | .collectiveFinished handle => completeHandle handle
  | .nodeFinished token | .packetSent token | .packetReceived token => completeToken token event
  checkTermination

/-- The first wake. -/
def fire : Act κ Unit := call .wake

end Engine

end TraceReplay
