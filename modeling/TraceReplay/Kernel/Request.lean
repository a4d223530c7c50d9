/-
**Requests of the engine to a kernel.**

Whatever takes simulated time is asked of the kernel.  An operation is asked for under a token of the
engine and comes back with it; a collective, or the timed stand-in for one, gets a handle of the
kernel.

Main definitions:

* `Transfer` — one side of a point-to-point transfer;
* `CollectiveRequest` — a collective with its payload, dimensions and group;
* `Operation`, `Gathering` — what is asked for under a token, and what gets a handle;
* `Issued` — a request as it was made, with its token or handle.
-/

import TraceReplay.Counter
import TraceReplay.Trace.Collective

set_option relaxedAutoImplicit false
set_option autoImplicit false

namespace TraceReplay

/-- The element type of a payload. -/
inductive DataType where
  | uint8
  | float16
  | float32
  deriving DecidableEq, Repr

namespace DataType

/-- The name of an element type. -/
def name : DataType → String
  | uint8 => "uint8"
  | float16 => "float16"
  | float32 => "float32"

/-- The element type with a given name. -/
def ofName? (s : String) : Option DataType := [uint8, float16, float32].find? fun d => d.name = s

/-- Bytes of one element. -/
def width : DataType → Nat
  | uint8 => 1
  | float16 => 2
  | float32 => 4

end DataType

/-- One side of a point-to-point transfer. -/
structure Transfer where
  source : Nat
  destination : Nat
  /-- Number of elements. -/
  size : Nat
  tag : Nat
  datatype : DataType
  /-- The node that asks for it. -/
  node : NodeId
  deriving DecidableEq, Repr

namespace Transfer

/-- Bytes of the payload. -/
def bytes (t : Transfer) : Except Fault Nat := Counter.mul t.size t.datatype.width

/-- What the two sides of one transfer agree on: source, destination, tag and size. -/
def matchKey (t : Transfer) : List Nat := [t.source, t.destination, t.tag, t.size]

end Transfer

/-- A collective asked of a kernel. -/
structure CollectiveRequest where
  kind : CollectiveKind
  /-- Bytes of the payload. -/
  size : Nat
  /-- One flag for each network dimension. -/
  involvedDims : List Bool
  group : Option Group
  priority : Nat
  deriving DecidableEq, Repr

/-- What is asked for under a token. -/
inductive Operation where
  /-- Time passes. -/
  | timed (duration : Tick)
  /-- Bytes move to or from the remote memory. -/
  | remoteMemory (size : Nat)
  | send (transfer : Transfer)
  | receive (transfer : Transfer)
  deriving DecidableEq, Repr

/-- The kind of event that an operation comes back with. -/
def Operation.expected : Operation → Expected
  | timed _ | remoteMemory _ => .nodeFinished
  | send _ => .packetSent
  | receive _ => .packetReceived

/-- What gets a handle. -/
inductive Gathering where
  /-- Time passes, in place of a collective without primitive. -/
  | timed (duration : Tick)
  | collective (request : CollectiveRequest)
  deriving DecidableEq, Repr

/-- A request as it was made. -/
inductive Issued where
  | operation (token : Token) (operation : Operation)
  | gathering (handle : Handle) (gathering : Gathering)
  deriving DecidableEq, Repr

end TraceReplay
