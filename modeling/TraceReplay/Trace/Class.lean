/-
**Kinds and classes of trace nodes.**

A trace writes one of seven kinds for each node; together with its CPU flag the kind decides the
class, and the class decides everything the engine does with the node.

Main definitions:

* `NodeId`, `Tick` — ids of nodes and points in simulated time;
* `NodeKind` — the kind written in the trace, with its spelling;
* `NodeClass` — the class, with its display name and its number in trace lines;
* `NodeKind.toClass` — how kind and CPU flag give the class.
-/

set_option relaxedAutoImplicit false
set_option autoImplicit false

namespace TraceReplay

/-- The id of a node in the trace of one system. -/
abbrev NodeId := Nat

/-- A point in simulated time, or a length of it. -/
abbrev Tick := Nat

/-- What a trace says a node is. -/
inductive NodeKind where
  | compute
  | memLoad
  | memStore
  | collective
  | send
  | receive
  | invalid
  deriving DecidableEq, Repr

namespace NodeKind

/-- All kinds. -/
def all : List NodeKind := [compute, memLoad, memStore, collective, send, receive, invalid]

/-- The spelling of a kind in a trace. -/
def spelling : NodeKind → String
  | compute => "COMP_NODE"
  | memLoad => "MEM_LOAD_NODE"
  | memStore => "MEM_STORE_NODE"
  | collective => "COMM_COLL_NODE"
  | send => "COMM_SEND_NODE"
  | receive => "COMM_RECV_NODE"
  | invalid => "INVALID_NODE"

/-- The kind with a given spelling. -/
def ofSpelling? (s : String) : Option NodeKind := all.find? fun k => k.spelling = s

@[simp] theorem ofSpelling?_spelling (k : NodeKind) : ofSpelling? k.spelling = some k := by
  cases k <;> decide

end NodeKind

/-- What the engine does with a node. -/
inductive NodeClass where
  | cpuCompute
  | gpuCompute
  | memLoad
  | memStore
  | collective
  | send
  | receive
  | invalid
  deriving DecidableEq, Repr

namespace NodeClass

/-- All classes. -/
def all : List NodeClass :=
  [cpuCompute, gpuCompute, memLoad, memStore, collective, send, receive, invalid]

/-- The name of a class as a value in a document. -/
def spelling : NodeClass → String
  | cpuCompute => "CpuCompute"
  | gpuCompute => "GpuCompute"
  | memLoad => "MemLoad"
  | memStore => "MemStore"
  | collective => "Collective"
  | send => "Send"
  | receive => "Recv"
  | invalid => "Invalid"

/-- The class with a given name. -/
def ofSpelling? (s : String) : Option NodeClass := all.find? fun c => c.spelling = s

/-- The name of a class on display. -/
def display : NodeClass → String
  | cpuCompute => "cpu_compute"
  | gpuCompute => "gpu_compute"
  | memLoad => "mem_load"
  | memStore => "mem_store"
  | collective => "collective"
  | send => "send"
  | receive => "recv"
  | invalid => "invalid"

/-- The number of a class in trace lines. -/
def code : NodeClass → Nat
  | invalid => 0
  | memLoad => 1
  | memStore => 2
  | cpuCompute | gpuCompute => 3
  | send => 4
  | receive => 5
  | collective => 6

/-- Computation on either kind of processor. -/
def isCompute : NodeClass → Bool
  | cpuCompute | gpuCompute => true
  | _ => false

/-- Traffic with the remote memory. -/
def isRemoteMemory : NodeClass → Bool
  | memLoad | memStore => true
  | _ => false

/-- Communication between systems. -/
def isCommunication : NodeClass → Bool
  | collective | send | receive => true
  | _ => false

end NodeClass

/-- The class of a node of a kind; computation runs on the CPU or not. -/
def NodeKind.toClass (onCpu : Bool) : NodeKind → NodeClass
  | .compute => if onCpu then .cpuCompute else .gpuCompute
  | .memLoad => .memLoad
  | .memStore => .memStore
  | .collective => .collective
  | .send => .send
  | .receive => .receive
  | .invalid => .invalid

end TraceReplay
