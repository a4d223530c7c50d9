/-
**The final report.**

Once a run is over its records are summed up: the wall time, the busy time of each category, means
over all computations weighted by their durations, and, if memory was tracked, its use over time.

Main definitions:

* `Utilizations`, `MemoryReport`, `Report` — the report and its parts;
* `typeTimes` — the busy time of each category that has completed nodes;
* `Utilizations.ofRecords` — the weighted means;
* `Report.metrics` — the metrics of a report, as they are noted;
* `Report.toJson` — the document of a report.
-/

import TraceReplay.Journal
import TraceReplay.Json.FloatForm
import TraceReplay.Json.Printer
import TraceReplay.Memory.Timeline
import TraceReplay.Statistics.BusyTime
import TraceReplay.Statistics.Record

set_option relaxedAutoImplicit false
set_option autoImplicit false

namespace TraceReplay

/-! ### Busy time by category -/

/-- The intervals of the completed nodes of a category. -/
def intervalsOf (records : List Record) (t : OperatorType) : List Interval :=
  (records.filter fun r => r.operatorType = t).filterMap Record.interval?

/-- The busy time of each category that has completed nodes. -/
def typeTimes (records : List Record) : Except Fault (List (OperatorType × Tick)) :=
  (OperatorType.all.filter fun t => intervalsOf records t ≠ []).mapM fun t => do
    return (t, ← busyTime (intervalsOf records t))

/-! ### Weighted means -/

/-- Means over computations, weighted by duration. -/
structure Utilizations where
  computeBoundPercentage : Float
  compute : Float
  memory : Float
  intensity : Float

namespace Utilizations

/-- Sums over computations. -/
structure Totals where
  /-- Time of computations bound by the processor. -/
  computeBoundTime : Nat := 0
  compute : Float := 0
  memory : Float := 0
  intensity : Float := 0
  /-- Time of all computations.  It starts at one tick, so that an empty run has finite means. -/
  time : Nat := 1

/-- Adds a record to the totals. -/
def Totals.add (t : Totals) (r : Record) : Except Fault Totals :=
  if !r.operatorType.isCompute then .ok t
  else do
    match ← r.duration with
    | none => return t
    | some duration =>
        let weight := Binary64.ofCounter duration
        let of (f : Metrics → Float) : Float := ((r.metrics.map f).getD 0) * weight
        let bound := r.metrics.map Metrics.memoryBound = some false
        let computeBoundTime ←
          if bound then Counter.add t.computeBoundTime duration else pure t.computeBoundTime
        let time ← Counter.add t.time duration
        return {
          computeBoundTime
          compute := t.compute + of Metrics.computeUtilization
          memory := t.memory + of Metrics.memoryUtilization
          intensity := t.intensity + of Metrics.intensity
          time }

/-- The means over some records. -/
def ofRecords (records : List Record) : Except Fault Utilizations := do
  let t ← records.foldlM Totals.add {}
  let time := Binary64.ofCounter t.time
  return {
    computeBoundPercentage := Binary64.ofCounter t.computeBoundTime / time
    compute := t.compute / time
    memory := t.memory / time
    intensity := t.intensity / time }

end Utilizations

/-! ### The report -/

/-- The use of memory. -/
structure MemoryReport where
  timeline : Timeline
  peak : Nat
  average : Float

/-- The memory report of a timeline. -/
def MemoryReport.ofTimeline (timeline : Timeline) : Except Fault MemoryReport := do
  return { timeline, peak := timeline.peak, average := ← timeline.average }

/-- The report of a run. -/
structure Report where
  sysId : Nat
  wallTime : Tick
  typeTimes : List (OperatorType × Tick)
  utilizations : Utilizations
  memory : Option MemoryReport

namespace Report

/-- The metrics of a report by name, in the order in which they are noted. -/
def metrics (r : Report) : List (String × MetricValue) :=
  let u := r.utilizations
  [("Wall time", .count r.wallTime)]
    ++ (r.typeTimes.map fun t => (t.1.metricName, .count t.2))
    ++ [("Compute bound percentage", .number u.computeBoundPercentage),
      ("Average compute utilization", .number u.compute),
      ("Average memory utilization", .number u.memory),
      ("Average operation intensity", .number u.intensity)]
    ++ match r.memory with
      | none => []
      | some m =>
          [("Average memory usage", .number m.average), ("Peak memory usage", .count m.peak)]

end Report

/-! ### Documents -/

/-- The document of a timeline. -/
def Timeline.toJson (t : Timeline) : Json :=
  .record [("samples", .array (t.samples.map fun s =>
    .record [("tick", .nat s.tick), ("bytes", .nat s.bytes)]))]

/-- The document of the means. -/
def Utilizations.toJson (u : Utilizations) : Json :=
  .record [("compute_bound_percentage", .ofFloat u.computeBoundPercentage),
    ("average_compute_utilization", .ofFloat u.compute),
    ("average_memory_utilization", .ofFloat u.memory),
    ("average_operation_intensity", .ofFloat u.intensity)]

/-- The document of a memory report. -/
def MemoryReport.toJson (m : MemoryReport) : Json :=
  .record [("timeline", m.timeline.toJson), ("peak", .nat m.peak), ("average", .ofFloat m.average)]

/-- The document of a report. -/
def Report.toJson (r : Report) : Json :=
  .record [("sys_id", .nat r.sysId), ("wall_time", .nat r.wallTime),
    ("type_time", .record (r.typeTimes.map fun t => (t.1.key, .nat t.2))),
    ("utilizations", r.utilizations.toJson), ("memory", Json.option MemoryReport.toJson r.memory)]

end TraceReplay
