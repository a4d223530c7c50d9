/-
**The journal is written and never read.**

What the parts of the engine do, and what the analytical kernel does, does not depend on the journal.  To
compare two runs it therefore never has to be known what either of them wrote.

Main definitions:

* `Kernel.Blind` — what a kernel does does not depend on the journal.

Main results:

* `SlotPool.blind_occupy`, `Gatherings.blind_complete`, `Statistics.blind_recordEnd`,
  `Statistics.blind_summarize`, `Analytical.blind` — the parts that do not read it.
-/

import TraceReplay.Kernel.Analytical
import TraceReplay.Proofs.Mirror
import TraceReplay.Workload

set_option relaxedAutoImplicit false
set_option autoImplicit false

namespace TraceReplay

open TraceReplay.Action

/-! ### Slots and handles -/

theorem SlotPool.blind_occupy (id : NodeId) (c : NodeClass) : Blind (SlotPool.occupy id c) := by
  rw [SlotPool.occupy]
  split
  · exact .pure ()
  · refine .get_bind fun p => .ite (.throw_bind _ _) ?_
    exact (Blind.put _).bind fun _ => .note _

theorem SlotPool.blind_release (id : NodeId) (c : NodeClass) : Blind (SlotPool.release id c) := by
  rw [SlotPool.release]
  split
  · exact .pure ()
  · refine .get_bind fun p => .ite (.throw_bind _ _) ?_
    exact (Blind.put _).bind fun _ => .note _

theorem Gatherings.blind_complete (handle : Handle) : Blind (Gatherings.complete handle) := by
  refine .get_bind fun g => ?_
  split
  · exact .throw _
  · split
    · exact .throw _
    · refine (Blind.lift _).bind fun left => .ite ?_ ?_
      · exact (Blind.put _).bind fun _ => .pure _
      · exact (Blind.put _).bind fun _ => (Blind.note _).bind fun _ => .pure _

/-! ### Statistics -/

theorem Tracker.blind_recordRead (id : NodeId) (start finish : Tick) (t : Tensor) :
    Blind (Tracker.recordRead id start finish t) := by
  refine .get_bind fun m => (Blind.lift _).bind fun known => .ite ?_ (.update _)
  exact (Blind.note _).bind fun _ => (Blind.update _).bind fun _ => .update _

theorem Tracker.blind_recordWrite (id : NodeId) (start finish : Tick) (t : Tensor) :
    Blind (Tracker.recordWrite id start finish t) := by
  exact .get_bind fun m => (Blind.lift _).bind fun known => .ite (.throw_bind _ _) (.put _)

theorem Tracker.blind_recordEnd (n : Node) (tick : Tick) : Blind (Tracker.recordEnd n tick) := by
  refine .get_bind fun m => ?_
  split
  · exact .throw _
  · refine (Blind.put _).bind fun _ => (Blind.lift _).bind fun inputs =>
      (Blind.lift _).bind fun outputs => ?_
    exact (Blind.forM (Tracker.blind_recordRead n.id _ tick) inputs).bind fun _ =>
      Blind.forM (Tracker.blind_recordWrite n.id _ tick) outputs

theorem Statistics.blind_onMemory {act : Action Stop Tracker Unit} (h : Blind act) :
    Blind (Statistics.onMemory act) := by
  refine .get_bind fun s => ?_
  split
  · exact .pure ()
  · exact h.on

theorem Statistics.blind_recordEnd (n : Node) (tick : Tick) :
    Blind (Statistics.recordEnd n tick) := by
  refine .get_bind fun s => ?_
  split
  · exact .throw _
  · refine .ite (.throw_bind _ _) ((Blind.put _).bind fun _ => ?_)
    exact .ite (Statistics.blind_onMemory (Tracker.blind_recordEnd n tick)) (.pure ())

theorem Statistics.blind_summarize : Blind Statistics.summarize := by
  refine .get_bind fun s => (Blind.note _).bind fun _ => ?_
  split
  · exact .throw_bind _ _
  · exact (Blind.lift _).bind fun _ => (Blind.lift _).bind fun _ => (Blind.lift _).bind fun _ =>
      (Blind.note _).bind fun _ => (Blind.put _).bind fun _ => .pure _

/-! ### Kernels -/

/-- What a kernel does does not depend on the journal. -/
structure Kernel.Blind (κ : Type) [Kernel κ] : Prop where
  start : ∀ token operation, Action.Blind (Kernel.start token operation : Action Fault κ Unit)
  gather : ∀ gathering, Action.Blind (Kernel.gather gathering : Action Fault κ Handle)

theorem Analytical.blind : Kernel.Blind Analytical := by
  refine ⟨fun token operation => ?_, fun gathering => ?_⟩
  · show Blind (Analytical.start token operation)
    exact .get_bind fun _ => (Blind.lift _).bind fun _ =>
      (Blind.forM (fun _ => .note _) _).bind fun _ => .put _
  · show Blind (Analytical.gather gathering)
    exact .get_bind fun _ => (Blind.lift _).bind fun _ =>
      (Blind.forM (fun _ => .note _) _).bind fun _ => (Blind.put _).bind fun _ => .pure _

end TraceReplay
