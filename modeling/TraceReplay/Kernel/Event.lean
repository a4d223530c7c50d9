/-
**What crosses the seam between engine and kernel.**

The engine names each operation it hands over by a token; the kernel names each collective by a
handle.  Both come back in events.

Main definitions:

* `Token`, `Handle` — the two names, with their display forms;
* `Event` — what a kernel delivers;
* `Expected` — the kind of event an operation is to come back with.
-/

set_option relaxedAutoImplicit false
set_option autoImplicit false

namespace TraceReplay

/-- The engine's name for an operation in flight. -/
structure Token where
  index : Nat
  deriving DecidableEq, Repr

/-- The kernel's name for a collective in flight. -/
structure Handle where
  index : Nat
  deriving DecidableEq, Repr

/-- A token on display. -/
def Token.display (t : Token) : String := s!"token#{t.index}"

/-- A handle on display. -/
def Handle.display (h : Handle) : String := s!"collective#{h.index}"

/-- What a kernel tells the engine. -/
inductive Event where
  /-- Nothing happened; look for work again. -/
  | wake
  /-- A collective finished. -/
  | collectiveFinished (handle : Handle)
  /-- A timed operation or a remote-memory request finished. -/
  | nodeFinished (token : Token)
  /-- The sending side of a transfer finished. -/
  | packetSent (token : Token)
  /-- The payload of a transfer arrived. -/
  | packetReceived (token : Token)
  deriving DecidableEq, Repr

namespace Event

/-- The token an event brings back. -/
def token? : Event → Option Token
  | nodeFinished t | packetSent t | packetReceived t => some t
  | wake | collectiveFinished _ => none

/-- The handle an event brings back. -/
def handle? : Event → Option Handle
  | collectiveFinished h => some h
  | _ => none

/-- The name of an event on display. -/
def display : Event → String
  | wake => "wake"
  | collectiveFinished _ => "collective_finished"
  | nodeFinished _ => "node_finished"
  | packetSent _ => "packet_sent"
  | packetReceived _ => "packet_received"

end Event

/-- The kind of event that an operation with a token is to come back with. -/
inductive Expected where
  | nodeFinished
  | packetSent
  | packetReceived
  deriving DecidableEq, Repr

namespace Expected

/-- All kinds. -/
def all : List Expected := [nodeFinished, packetSent, packetReceived]

/-- The name of a kind. -/
def name : Expected → String
  | nodeFinished => "NodeFinished"
  | packetSent => "PacketSent"
  | packetReceived => "PacketReceived"

/-- The event of this kind that brings back a token. -/
def event : Expected → Token → Event
  | nodeFinished, t => .nodeFinished t
  | packetSent, t => .packetSent t
  | packetReceived, t => .packetReceived t

/-- Whether an event is of this kind. -/
def admits : Expected → Event → Bool
  | nodeFinished, .nodeFinished _ => true
  | packetSent, .packetSent _ => true
  | packetReceived, .packetReceived _ => true
  | _, _ => false

@[simp] theorem admits_event (e : Expected) (t : Token) : e.admits (e.event t) = true := by
  cases e <;> rfl

end Expected

end TraceReplay
