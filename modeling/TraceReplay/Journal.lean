/-
**The journal.**

The engine and its parts note what they do.  An entry is kept as data; its level and its wording
follow from it, so that the journal can be searched for what happened and also be printed.

Main definitions:

* `Level` — how important an entry is;
* `Entry` — what is noted;
* `Entry.level`, `Entry.message` — the level and the wording of an entry;
* `Journal.lines` — the lines of a journal up to a level.
-/

import TraceReplay.Binary64.Layout
import TraceReplay.Error
import TraceReplay.Kernel.Request
import TraceReplay.Trace.Node

set_option relaxedAutoImplicit false
set_option autoImplicit false

namespace TraceReplay

/-- How important an entry is, most important first. -/
inductive Level where
  | error
  | warn
  | info
  | debug
  | trace
  deriving DecidableEq, Repr

namespace Level

/-- All levels. -/
def all : List Level := [error, warn, info, debug, trace]

/-- The place of a level in the order. -/
def rank : Level → Nat
  | error => 1
  | warn => 2
  | info => 3
  | debug => 4
  | trace => 5

/-- The name of a level in a line. -/
def label : Level → String
  | error => "ERROR"
  | warn => "WARN"
  | info => "INFO"
  | debug => "DEBUG"
  | trace => "TRACE"

end Level

/-- The value of a metric. -/
inductive MetricValue where
  | count (n : Nat)
  | number (x : Float)

/-- A metric on display. -/
def MetricValue.display : MetricValue → String
  | count n => toString n
  | number x => Binary64.plain x

/-- What a trace line says about a node: id, name and class. -/
structure NodeLabel where
  id : NodeId
  name : String
  nodeClass : NodeClass
  deriving DecidableEq, Repr

/-- The label of a node. -/
def Node.label (n : Node) : NodeLabel := ⟨n.id, n.name, n.nodeClass⟩

/-- What is noted. -/
inductive Entry where
  /-- The slots taken when a node's resource was asked for. -/
  | slots (taken : PerResource Nat)
  | slotTaken (node : NodeId) (resource : Resource)
  | slotReleased (node : NodeId) (resource : Resource)
  /-- A handle finished, and others of its node are still out. -/
  | handleDone (node : NodeId) (handle : Handle) (remaining : Nat)
  /-- The cost of one side of a transfer. -/
  | sendCost (transfer : Transfer) (cost : Tick)
  | receiveCost (transfer : Transfer) (cost : Tick)
  | collectiveCost (kind : CollectiveKind) (size npus : Nat) (cost : Tick) (handle : Handle)
  /-- A system takes part in a communicator group. -/
  | joined (sysId group size : Nat)
  /-- A node was planned and is now issued or skipped. -/
  | issue (sysId : Nat) (tick : Tick) (node : NodeLabel)
  /-- A node's completion came back. -/
  | callback (sysId : Nat) (tick : Tick) (node : NodeLabel)
  | nodeSkipped (sysId : Nat) (node : NodeId) (reason : ReplayError)
  | trafficNotRecorded (sysId : Nat) (node : NodeId) (reason : ReplayError)
  | assumedPresent (sysId : Nat) (node : NodeId) (tensor : String)
  | finished (sysId : Nat) (tick : Tick)
  | summaryStart (sysId : Nat)
  | summaryEnd (sysId : Nat)
  | metric (sysId : Nat) (name : String) (value : MetricValue)
  | noSummary (sysId : Nat)

namespace Entry

/-- The level of an entry. -/
def level : Entry → Level
  | slots .. | slotTaken .. | slotReleased .. | handleDone .. | sendCost .. | receiveCost ..
  | collectiveCost .. => .trace
  | joined .. | issue .. | callback .. => .debug
  | nodeSkipped .. | trafficNotRecorded .. | assumedPresent .. | noSummary .. => .warn
  | finished .. | summaryStart .. | summaryEnd .. | metric .. => .info

/-- The rest of a trace line, after the word that says what happened. -/
def traceLine (sysId : Nat) (tick : Tick) (node : NodeLabel) : String :=
  s!"sys->id={sysId}, tick={tick}, node->id={node.id}, node->name={node.name}, "
    ++ s!"node->type={node.nodeClass.code}"

/-- What two sides of a transfer agree on, in parentheses. -/
def matchKey (t : Transfer) : String := "(" ++ ", ".intercalate (t.matchKey.map toString) ++ ")"

/-- The wording of an entry. -/
def message : Entry → String
  | slots t =>
      s!"Current hw resources: cpu_comp_ops={t.cpuCompute}, gpu_comp_ops={t.gpuCompute}, "
        ++ s!"comm_ops={t.communication}, mem_ops={t.remoteMemory}"
  | slotTaken node resource => s!"Node.id={node} occupy {resource.display}"
  | slotReleased node resource => s!"Node.id={node} release {resource.display}"
  | handleDone node handle remaining =>
      s!"Node.id={node} collective {handle.display} done, {remaining} handle(s) outstanding"
  | sendCost transfer cost => s!"send {matchKey transfer} completes in {cost} ticks"
  | receiveCost transfer cost => s!"recv {matchKey transfer} completes in {cost} ticks"
  | collectiveCost kind size npus cost handle =>
      s!"{kind.name} of {size} bytes over {npus} npus: {cost} ticks ({handle.display})"
  | joined sysId group size => s!"sys[{sysId}] joins communicator group {group} of {size} npus"
  | issue sysId tick node => "issue," ++ traceLine sysId tick node
  | callback sysId tick node => "callback," ++ traceLine sysId tick node
  | nodeSkipped sysId node reason => s!"sys[{sysId}] skipping node {node}: {reason.message}"
  | trafficNotRecorded sysId node reason =>
      s!"sys[{sysId}] memory activity of node {node} not recorded: {reason.message}"
  | assumedPresent sysId node tensor =>
      s!"sys[{sysId}] node {node} reads tensor '{tensor}' before any write; "
        ++ "assuming it exists from tick 0"
  | finished sysId tick => s!"sys[{sysId}] finished, {tick} cycles"
  | summaryStart sysId => s!"sys[{sysId}]. Post statistics processing start."
  | summaryEnd sysId => s!"sys[{sysId}]. Post statistics processing end."
  | metric sysId name value => s!"sys[{sysId}], {name}={value.display}"
  | noSummary sysId => s!"sys[{sysId}] statistics requested before post-processing"

/-- An entry as a line: its level, then its wording. -/
def line (e : Entry) : String := e.level.label ++ " " ++ e.message

end Entry

/-- The lines of a journal up to a level, in the order of their entries. -/
def Journal.lines (upTo : Level) (journal : Array Entry) : List String :=
  (journal.toList.filter fun e => e.level.rank ≤ upTo.rank).map Entry.line

end TraceReplay
