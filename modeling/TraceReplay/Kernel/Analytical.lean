/-
**A kernel with closed-form costs.**

Every request is scheduled once, at the tick that a formula gives, and requests come back in the
order of their ticks, those of one tick in the order in which they were made.  Transfers find their
peer always ready: a send completes when its bytes have left, a receive when they would have arrived.

Main definitions:

* `AnalyticalConfig` — the cost parameters;
* `AnalyticalConfig.transferCost`, `AnalyticalConfig.collectiveCost` — the formulas;
* `Scheduled`, `Scheduled.cmp` — scheduled events, and their order;
* `Analytical` — the kernel;
* `Analytical.next?` — the next event.
-/

import TraceReplay.Config.Format
import TraceReplay.Counter
import TraceReplay.Kernel.Scripted

set_option relaxedAutoImplicit false
set_option autoImplicit false

namespace TraceReplay

/-- Cost parameters. -/
structure AnalyticalConfig where
  remoteMemLatency : Tick := 100
  /-- Bytes per tick. -/
  remoteMemBandwidth : Float := 50
  /-- Ticks of one hop. -/
  linkLatency : Tick := 500
  /-- Bytes per tick of one link. -/
  linkBandwidth : Float := 25
  /-- Systems in a collective without group. -/
  npus : Nat := 8

namespace AnalyticalConfig

/-- Refuses parameters under which costs cannot be computed. -/
def validate (c : AnalyticalConfig) : Except ReplayError Unit :=
  if !Binary64.isPositive c.remoteMemBandwidth || !Binary64.isPositive c.linkBandwidth then
    .error (.config "kernel bandwidths must be positive")
  else if c.npus = 0 then .error (.config "kernel needs at least one npu")
  else .ok ()

/-- Ticks to move bytes after a latency. -/
def transferCost (latency : Tick) (bytes bandwidth : Float) : Tick :=
  Counter.addClamped latency (Binary64.toCounter (bytes / bandwidth).ceil)

/-- Share of the payload that a ring of `n` systems moves, and the steps it takes. -/
def ringShare (kind : CollectiveKind) (n : Float) : Float × Float :=
  match kind with
  | .allReduce => (2 * (n - 1) / n, 2 * (n - 1))
  | _ => ((n - 1) / n, n - 1)

/-- Ticks of a collective of `npus` systems.  Every step and every involved dimension adds one hop. -/
def collectiveCost (c : AnalyticalConfig) (request : CollectiveRequest) (npus : Nat) :
    Except Fault Tick := do
  let (volume, steps) := ringShare request.kind (Binary64.ofCounter (max npus 1))
  let dims := (request.involvedDims.filter id).length
  let hops ← Counter.mul (Binary64.toCounter steps) c.linkLatency
  let extra ← Counter.mul dims c.linkLatency
  let latency ← Counter.add hops extra
  return transferCost latency (Binary64.ofCounter request.size * volume) c.linkBandwidth

/-- Names of the parameters, in the order of their declaration. -/
def names : List String :=
  ["remote_mem_latency", "remote_mem_bandwidth", "link_latency", "link_bandwidth", "npus"]

/-- The parameters that a document gives. -/
def ofDocument? {V : Type} (d : Dialect V) (v : V) : Option AnalyticalConfig := do
  let fields : Fields V ← d.record? names v
  let default : AnalyticalConfig := {}
  let counter := d.natBelow? Counter.limit
  return {
    remoteMemLatency := ← fields.withDefault? "remote_mem_latency" default.remoteMemLatency counter
    remoteMemBandwidth :=
      ← fields.withDefault? "remote_mem_bandwidth" default.remoteMemBandwidth d.float?
    linkLatency := ← fields.withDefault? "link_latency" default.linkLatency counter
    linkBandwidth := ← fields.withDefault? "link_bandwidth" default.linkBandwidth d.float?
    npus := ← fields.withDefault? "npus" default.npus counter }

/-- The parameters written by a text. -/
def read : String → Except ReplayError AnalyticalConfig := Json.readAs (ofDocument? Json.dialect)

end AnalyticalConfig

/-- An event with the tick at which it is due, and the number of its request. -/
structure Scheduled where
  tick : Tick
  number : Nat
  event : Event
  deriving DecidableEq, Repr

/-- Events are ordered by their ticks, those of one tick by the numbers of their requests. -/
def Scheduled.cmp (a b : Scheduled) : Ordering :=
  (compare a.tick b.tick).then (compare a.number b.number)

/-- The kernel. -/
structure Analytical where
  config : AnalyticalConfig
  now : Tick := 0
  /-- Requests made so far. -/
  requests : Nat := 0
  nextHandle : Nat := 0
  /-- Events to come, the next one first. -/
  queue : List Scheduled := []
  /-- Events delivered so far. -/
  delivered : Nat := 0

namespace Analytical

/-- A fresh kernel, unless its parameters cannot be used. -/
def ofConfig (config : AnalyticalConfig) : Except ReplayError Analytical := do
  config.validate
  return { config }

/-- Puts an event before the first one that it precedes. -/
def enqueue (e : Scheduled) : List Scheduled → List Scheduled
  | [] => [e]
  | d :: ds => if e.cmp d = .lt then e :: d :: ds else d :: enqueue e ds

/-- Schedules an event after a delay; ticks stop at the last one. -/
def schedule (k : Analytical) (delay : Tick) (event : Event) : Analytical :=
  { k with
    requests := k.requests + 1
    queue := enqueue ⟨Counter.addClamped k.now delay, k.requests, event⟩ k.queue }

/-- The next event; the clock moves to its tick. -/
def next? (k : Analytical) : Option (Event × Analytical) :=
  match k.queue with
  | [] => none
  | e :: rest => some (e.event, { k with now := e.tick, queue := rest, delivered := k.delivered + 1 })

/-- Number of events to come. -/
def pending (k : Analytical) : Nat := k.queue.length

/-- The duration of an operation. -/
def operationCost (c : AnalyticalConfig) : Operation → Except Fault Tick
  | .timed duration => .ok duration
  | .remoteMemory size =>
      .ok (AnalyticalConfig.transferCost c.remoteMemLatency (Binary64.ofCounter size)
        c.remoteMemBandwidth)
  | .send t => do
      let bytes ← t.bytes
      return AnalyticalConfig.transferCost 0 (Binary64.ofCounter bytes) c.linkBandwidth
  | .receive t => do
      let bytes ← t.bytes
      return AnalyticalConfig.transferCost c.linkLatency (Binary64.ofCounter bytes) c.linkBandwidth

/-- The entries about the duration of an operation. -/
def costNotes (cost : Tick) : Operation → List Entry
  | .send t => [.sendCost t cost]
  | .receive t => [.receiveCost t cost]
  | .timed _ | .remoteMemory _ => []

/-- Takes an operation. -/
def start (token : Token) (operation : Operation) : Action Fault Analytical Unit := do
  let k ← Action.get
  let cost ← Action.lift (operationCost k.config operation)
  (costNotes cost operation).forM Action.note
  Action.put (k.schedule cost (operation.expected.event token))

/-- Systems in a collective: those of its group, or as many as configured. -/
def participants (c : AnalyticalConfig) (request : CollectiveRequest) : Nat :=
  match request.group with
  | some g => g.size
  | none => c.npus

/-- The duration of what gets a handle. -/
def gatheringCost (c : AnalyticalConfig) : Gathering → Except Fault Tick
  | .timed duration => .ok duration
  | .collective request => c.collectiveCost request (participants c request)

/-- The entries about the duration of what gets a handle. -/
def gatheringNotes (c : AnalyticalConfig) (cost : Tick) (handle : Handle) : Gathering → List Entry
  | .timed _ => []
  | .collective request =>
      [.collectiveCost request.kind request.size (participants c request) cost handle]

/-- Takes what gets a handle; handles are numbered from zero. -/
def gather (gathering : Gathering) : Action Fault Analytical Handle := do
  let k ← Action.get
  let cost ← Action.lift (gatheringCost k.config gathering)
  let handle : Handle := ⟨k.nextHandle⟩
  (gatheringNotes k.config cost handle gathering).forM Action.note
  Action.put ({ k with nextHandle := k.nextHandle + 1 }.schedule cost (.collectiveFinished handle))
  return handle

instance : Kernel Analytical where
  now := Analytical.now
  start := start
  gather := gather

end Analytical

end TraceReplay
