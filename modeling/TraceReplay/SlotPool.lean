/-
**Slots in use.**

A pool counts, for each resource, the slots that nodes in flight hold.  A node asks whether a slot is
free before it takes one.

Main definitions:

* `SlotPool` — capacities and slots taken;
* `SlotPool.hasRoom` — whether a node of a class finds a slot;
* `SlotPool.occupy`, `SlotPool.release` — taking and giving back a slot;
* `SlotPool.check` — `hasRoom`, noted in the journal.
-/

import TraceReplay.Action
import TraceReplay.Config

set_option relaxedAutoImplicit false
set_option autoImplicit false

namespace TraceReplay

/-- The slots of each resource, and how many of them are taken. -/
structure SlotPool where
  capacity : Capacity
  taken : PerResource Nat
  deriving DecidableEq, Repr

namespace SlotPool

/-- A pool with all slots free. -/
def ofCapacity (capacity : Capacity) : SlotPool := ⟨capacity, .uniform 0⟩

/-- Whether a node of a class finds a slot; a class without resource needs none. -/
def hasRoom (p : SlotPool) (c : NodeClass) : Bool :=
  match Resource.ofClass? c with
  | some r => p.taken.get r < p.capacity.get r
  | none => true

/-- Whether all slots are free. -/
def isIdle (p : SlotPool) : Bool := p.taken.toList.all (· = 0)

/-- Whether a node of a class finds a slot; the journal shows what was looked at. -/
def check {ε : Type} (c : NodeClass) : Action ε SlotPool Bool := do
  let p ← Action.get
  Action.note (.slots p.taken)
  return p.hasRoom c

/-- Takes a slot for a node. -/
def occupy (node : NodeId) (c : NodeClass) : Action Fault SlotPool Unit := do
  match Resource.ofClass? c with
  | none => return
  | some r =>
      let p ← Action.get
      let n := p.taken.get r
      if p.capacity.get r ≤ n then throw (.resourceFull node r (p.capacity.get r))
      Action.put { p with taken := p.taken.set r (n + 1) }
      Action.note (.slotTaken node r)

/-- Gives back the slot of a node. -/
def release (node : NodeId) (c : NodeClass) : Action Fault SlotPool Unit := do
  match Resource.ofClass? c with
  | none => return
  | some r =>
      let p ← Action.get
      let n := p.taken.get r
      if n = 0 then throw (.resourceIdle node r)
      Action.put { p with taken := p.taken.set r (n - 1) }
      Action.note (.slotReleased node r)

end SlotPool

end TraceReplay
