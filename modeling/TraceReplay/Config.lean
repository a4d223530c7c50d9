/-
**Configuration of the engine.**

One value says which system is replayed, how durations are found, how many slots each resource has,
and what is recorded.

Main definitions:

* `Capacity` — the slots of each resource;
* `ValidationMode` — what happens to a node that lacks attributes;
* `EngineConfig` — the configuration, with its defaults;
* `EngineConfig.replayTicks` — the ticks of a recorded duration;
* `EngineConfig.validate` — the configurations that can be used.
-/

import TraceReplay.Counter
import TraceReplay.Roofline

set_option relaxedAutoImplicit false
set_option autoImplicit false

namespace TraceReplay

/-- Slots of each resource. -/
abbrev Capacity := PerResource Nat

namespace Capacity

/-- One slot of each resource. -/
def standard : Capacity := PerResource.uniform 1

/-- Refuses a capacity in which some resource has no slots; the first such resource is named. -/
def validate (c : Capacity) : Except ReplayError Unit :=
  match Resource.all.find? fun r => c.get r = 0 with
  | some r => .error (.config s!"resource capacity for {r.display} must be positive")
  | none => .ok ()

end Capacity

/-- What happens to a node that lacks attributes its class needs. -/
inductive ValidationMode where
  /-- The run ends with an error. -/
  | strict
  /-- The node is skipped with a warning. -/
  | lenient
  deriving DecidableEq, Repr

namespace ValidationMode

/-- The name of a mode. -/
def name : ValidationMode → String
  | strict => "strict"
  | lenient => "lenient"

/-- The mode with a given name. -/
def ofName? (s : String) : Option ValidationMode := [strict, lenient].find? fun m => m.name = s

end ValidationMode

/-- The configuration of an engine. -/
structure EngineConfig where
  /-- The system that is replayed. -/
  sysId : Nat := 0
  validation : ValidationMode := .strict
  /-- Whether every node replays its recorded duration, whatever its class. -/
  replayOnly : Bool := false
  /-- The cost model of CPU computation; without one it replays recorded durations. -/
  roofline : Option Roofline := none
  resources : Capacity := .standard
  /-- Whether reads and writes of tensors are recorded. -/
  trackMemory : Bool := false
  /-- Whether each issue and each completion writes a line to the journal. -/
  traceEnabled : Bool := false
  /-- Ticks in one unit of recorded duration. -/
  replayTickScale : Nat := 1000
  /-- Number of network dimensions. -/
  networkDims : Nat := 1
  /-- The file with the communicator groups. -/
  commGroupFile : Option String := none

namespace EngineConfig

/-- Recorded durations, strict validation, one slot of each resource. -/
def standard : EngineConfig := {}

/-- Every node replays its recorded duration. -/
def replay : EngineConfig := { replayOnly := true }

/-- CPU computation is costed by a roofline model. -/
def withRoofline (r : Roofline) : EngineConfig := { roofline := some r }

/-- Whether bad nodes end the run. -/
def isStrict (c : EngineConfig) : Bool := c.validation = .strict

/-- The ticks of a recorded duration; no duration lasts one tick. -/
def replayTicks (c : EngineConfig) (runtime : Nat) : Tick :=
  if runtime = 0 then 1 else Counter.mulClamped runtime c.replayTickScale

/-- Refuses a configuration that cannot be used. -/
def validate (c : EngineConfig) : Except ReplayError Unit := do
  if c.replayTickScale = 0 then throw (.config "replay_tick_scale must be positive")
  c.resources.validate
  match c.roofline with
  | some r => r.validate
  | none => pure ()

end EngineConfig

end TraceReplay
