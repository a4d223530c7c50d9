/-
**Statistics of a run.**

Main definitions:

* `Statistics` — the records by node, the tensor traffic if it is tracked, and the report once there
  is one;
* `Statistics.recordStart`, `Statistics.recordEstimate`, `Statistics.recordEnd` — writing records;
* `Statistics.summarize` — the report;
* `Statistics.noteReport` — the report, noted in the journal metric by metric.
-/

import TraceReplay.Memory.Tracker
import TraceReplay.Statistics.Report

set_option relaxedAutoImplicit false
set_option autoImplicit false

namespace TraceReplay

/-- What is recorded of a run. -/
structure Statistics where
  sysId : Nat
  records : SortedMap NodeId Record := ∅
  /-- Tensor traffic, if it is tracked. -/
  memory : Option Tracker := none
  report : Option Report := none

namespace Statistics

/-- Nothing recorded yet. -/
def ofSystem (sysId : Nat) (trackMemory : Bool) : Statistics :=
  { sysId, memory := if trackMemory then some { sysId } else none }

/-- Opens the record of a node.  Nodes that are skipped have no tensor traffic. -/
def recordStart (s : Statistics) (node : NodeId) (t : OperatorType) (tick : Tick) : Statistics :=
  { s with
    records := s.records.insert node { node, operatorType := t, start := tick }
    memory := if t = .invalid then s.memory else s.memory.map fun m => m.recordStart node tick }

/-- Adds what the roofline model says to the record of a node. -/
def recordEstimate (s : Statistics) (node : NodeId) (e : Estimate) : Except Fault Statistics :=
  match s.records.find? node with
  | none => .error (.noRecord node)
  | some r =>
      .ok { s with records := s.records.insert node { r with metrics := some (.ofEstimate e) } }

/-- An action on the tensor traffic, if it is tracked. -/
def onMemory (act : Action Stop Tracker Unit) : Action Stop Statistics Unit := do
  match (← Action.get).memory with
  | none => return
  | some m => act.on (fun _ => m) fun m s => { s with memory := some m }

/-- Closes the record of a node and records its tensor traffic.  The end is recorded in any case; an
error concerns the traffic only. -/
def recordEnd (n : Node) (tick : Tick) : Action Stop Statistics Unit := do
  let s ← Action.get
  match s.records.find? n.id with
  | none => throw (.fault (.noRecord n.id))
  | some r =>
      if tick < r.start then throw (.fault (.endsEarly n.id tick r.start))
      Action.put { s with records := s.records.insert n.id { r with finish := some tick } }
      if r.operatorType ≠ .invalid then onMemory (Tracker.recordEnd n tick)

/-- The record of a node that has started and not ended, of the smallest id. -/
def unfinished? (s : Statistics) : Option Record := s.records.values.find? fun r => r.finish.isNone

/-- The last end of a node. -/
def wallTime (s : Statistics) : Tick := (s.records.values.filterMap Record.finish).foldl max 0

/-- The busy time of each category that has completed nodes. -/
def typeTimes (s : Statistics) : Except Fault (List (OperatorType × Tick)) :=
  TraceReplay.typeTimes s.records.values

/-- The weighted means. -/
def utilizations (s : Statistics) : Except Fault Utilizations :=
  Utilizations.ofRecords s.records.values

/-- Builds the timeline of the tensor traffic. -/
def buildTimeline (m : Tracker) : Except Fault (Tracker × MemoryReport) := do
  let m ← m.buildTimeline
  return (m, ← MemoryReport.ofTimeline m.timeline)

/-- Sums up the run, in which every node has to have ended. -/
def summarize : Action Stop Statistics Report := do
  let s ← Action.get
  Action.note (.summaryStart s.sysId)
  if let some r := s.unfinished? then throw (.error (.unfinishedOperator r.node r.start))
  let typeTimes ← Action.lift (orFault s.typeTimes)
  let utilizations ← Action.lift (orFault s.utilizations)
  let built ← Action.lift (orFault (s.memory.mapM buildTimeline))
  let report : Report :=
    { sysId := s.sysId, wallTime := s.wallTime, typeTimes, utilizations, memory := built.map (·.2) }
  Action.note (.summaryEnd s.sysId)
  Action.put { s with memory := built.map (·.1), report := some report }
  return report

/-- The metrics of the report, or a warning that there is none. -/
def reportEntries (s : Statistics) : List Entry :=
  match s.report with
  | none => [.noSummary s.sysId]
  | some r => r.metrics.map fun m => .metric s.sysId m.1 m.2

/-- Notes the report. -/
def noteReport {ε : Type} : Action ε Statistics Unit := do
  let s ← Action.get
  s.reportEntries.forM Action.note

end Statistics

end TraceReplay
