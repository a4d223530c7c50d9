/-
**Written form of configurations.**

A configuration is a record whose fields all have defaults; so is its record of capacities, but not
its roofline model.  Members that are not declared are passed over.

Main definitions:

* `Capacity.ofDocument?`, `Roofline.ofDocument?`, `EngineConfig.ofDocument?` — the readers, for every
  dialect;
* `Json.dialect` — the dialect of JSON;
* `Capacity.read`, `EngineConfig.read` — a value written by a JSON text.
-/

import TraceReplay.Config
import TraceReplay.Document.Dialect
import TraceReplay.Json.Reader

set_option relaxedAutoImplicit false
set_option autoImplicit false

namespace TraceReplay

variable {V : Type}

/-- The capacity that a value of a document gives. -/
def Capacity.ofDocument? (d : Dialect V) (v : V) : Option Capacity := do
  let fields : Fields V ←
    d.record? ["cpu_compute", "gpu_compute", "communication", "remote_memory"] v
  let slots := d.natBelow? Counter.smallLimit
  return {
    cpuCompute := ← fields.withDefault? "cpu_compute" 1 slots
    gpuCompute := ← fields.withDefault? "gpu_compute" 1 slots
    communication := ← fields.withDefault? "communication" 1 slots
    remoteMemory := ← fields.withDefault? "remote_memory" 1 slots }

/-- The roofline model that a value of a document gives. -/
def Roofline.ofDocument? (d : Dialect V) (v : V) : Option Roofline := do
  let fields : Fields V ← d.record? ["peak_perf", "bandwidth"] v
  return {
    peakPerf := ← fields.required? "peak_perf" d.float?
    bandwidth := ← fields.required? "bandwidth" d.float? }

namespace EngineConfig

/-- Names of the settings, in the order of their declaration. -/
def names : List String :=
  ["sys_id", "validation", "replay_only", "roofline", "resources", "track_memory", "trace_enabled",
    "replay_tick_scale", "network_dims", "comm_group_file"]

/-- The configuration that a document gives. -/
def ofDocument? (d : Dialect V) (v : V) : Option EngineConfig := do
  let fields : Fields V ← d.record? names v
  let default : EngineConfig := {}
  let counter := d.natBelow? Counter.limit
  return {
    sysId := ← fields.withDefault? "sys_id" default.sysId counter
    validation := ← fields.withDefault? "validation" default.validation
      fun v => (d.variant? v).bind ValidationMode.ofName?
    replayOnly := ← fields.withDefault? "replay_only" default.replayOnly d.bool?
    roofline := ← fields.withDefault? "roofline" default.roofline
      (d.optional? (Roofline.ofDocument? d))
    resources := ← fields.withDefault? "resources" default.resources (Capacity.ofDocument? d)
    trackMemory := ← fields.withDefault? "track_memory" default.trackMemory d.bool?
    traceEnabled := ← fields.withDefault? "trace_enabled" default.traceEnabled d.bool?
    replayTickScale := ← fields.withDefault? "replay_tick_scale" default.replayTickScale counter
    networkDims := ← fields.withDefault? "network_dims" default.networkDims counter
    commGroupFile := ← fields.withDefault? "comm_group_file" default.commGroupFile
      (d.optional? d.text?) }

end EngineConfig

/-- The dialect of JSON. -/
def Json.dialect : Dialect Json where
  format := .json
  isNull := Json.isNull
  bool? := Json.bool?
  natBelow? := Json.natBelow?
  float? := Json.float?
  text? := Json.text?
  variant? := Json.variant?
  fields? := Json.members?
  items? := Json.items?
  surplusAllowed := false

/-- The capacity written by a text. -/
def Capacity.read : String → Except ReplayError Capacity :=
  Json.readAs (Capacity.ofDocument? Json.dialect)

/-- The configuration written by a text. -/
def EngineConfig.read : String → Except ReplayError EngineConfig :=
  Json.readAs (EngineConfig.ofDocument? Json.dialect)

end TraceReplay
