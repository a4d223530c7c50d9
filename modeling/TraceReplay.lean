import TraceReplay.SortedMap
import TraceReplay.Text.Decimal
import TraceReplay.Text.Quoted
import TraceReplay.Counter
import TraceReplay.Binary64.Layout
import TraceReplay.Json.Reader
import TraceReplay.Json.Printer
import TraceReplay.Trace.TensorList
import TraceReplay.Trace.Format
import TraceReplay.Config.Format
import TraceReplay.SlotPool
import TraceReplay.Trace.Load
import TraceReplay.Plan
import TraceReplay.Kernel.Analytical
import TraceReplay.Kernel.Scripted
import TraceReplay.InFlight
import TraceReplay.Memory.Tracker
import TraceReplay.Statistics.BusyTime
import TraceReplay.Statistics.Basic
import TraceReplay.Replay
import TraceReplay.Config.Load
import TraceReplay.Version
import TraceReplay.Proofs.Action
import TraceReplay.Proofs.Graph.Readiness
import TraceReplay.Proofs.Engine.Move
import TraceReplay.Proofs.Plan
import TraceReplay.Proofs.Engine.Simulation
import TraceReplay.Proofs.Engine.Lifecycle
import TraceReplay.Proofs.Engine.Custody
import TraceReplay.Proofs.Engine.Slots
import TraceReplay.Proofs.Engine.Coherence
import TraceReplay.Proofs.Engine.Run
import TraceReplay.Proofs.Stages
import TraceReplay.Proofs.Schedule
import TraceReplay.Proofs.Engine.Returns
import TraceReplay.Proofs.Stall
import TraceReplay.Proofs.Kernel.Analytical
import TraceReplay.Proofs.Replay
import TraceReplay.Proofs.Promises
import TraceReplay.Proofs.Termination
import TraceReplay.Proofs.QueueOrder
import TraceReplay.Proofs.BadNodes
import TraceReplay.Proofs.Engine.Course
import TraceReplay.Proofs.Hindsight
import TraceReplay.Proofs.BusyTime
import TraceReplay.Proofs.WallTime
import TraceReplay.Proofs.Waiting
import TraceReplay.Proofs.Silence
import TraceReplay.Proofs.Retelling
import TraceReplay.Proofs.ServiceTime
import TraceReplay.Proofs.Memory.Liveness
import TraceReplay.Proofs.Engine.Invariant
import TraceReplay.Proofs.Accounting
import TraceReplay.Proofs.Preflight
import TraceReplay.Proofs.Requests
import TraceReplay.Proofs.Touched
import TraceReplay.Proofs.Trace.Format
import TraceReplay.Proofs.Overflow
import TraceReplay.Proofs.Relisting
import TraceReplay.Proofs.Settings
import TraceReplay.Proofs.SingleAssignment
import TraceReplay.Proofs.Apart
import TraceReplay.Proofs.Engine.Realization
import TraceReplay.Proofs.Kernel.Agenda
import TraceReplay.Proofs.Alike
import TraceReplay.Proofs.Noninterference
import TraceReplay.Proofs.Memory.Usage
import TraceReplay.Proofs.Wakes
import TraceReplay.Proofs.TensorLists
import TraceReplay.Proofs.Kernel.Delivery
import TraceReplay.Proofs.Graph.Acceptance
import TraceReplay.Proofs.Graph.Calls
import TraceReplay.Proofs.Memory.History
import TraceReplay.Proofs.Gatherings
import TraceReplay.Proofs.Memory.Area
import TraceReplay.Proofs.Json.RoundTrip
import TraceReplay.Proofs.Trace.RoundTrip
import TraceReplay.Proofs.Trace.TensorList
