/-
**Kernels, and one without a model.**

A kernel owns the clock.  It takes requests and later tells the engine of their completion; it never
calls back while it takes one.  The simplest kernel follows a script: the clock stands where it is put,
requests have no effect, and handles are dealt from a list; when that is used up they are numbered from
one.

Main definitions:

* `Kernel` — what the engine asks of a kernel;
* `Scripted` — the kernel without a model.
-/

import TraceReplay.Action

set_option relaxedAutoImplicit false
set_option autoImplicit false

namespace TraceReplay

/-- Kernels with states of type `κ`. -/
class Kernel (κ : Type) where
  /-- The current tick. -/
  now : κ → Tick
  /-- Takes an operation that is to come back with a token. -/
  start : Token → Operation → Action Fault κ Unit
  /-- Takes what is to come back with a handle, and gives the handle. -/
  gather : Gathering → Action Fault κ Handle

/-- The kernel without a model. -/
structure Scripted where
  now : Tick := 0
  /-- Handles to deal next. -/
  handles : List Handle := []
  /-- Handles numbered so far. -/
  numbered : Nat := 0
  deriving DecidableEq, Repr

namespace Scripted

/-- Deals a handle. -/
def deal (k : Scripted) : Handle × Scripted :=
  match k.handles with
  | h :: hs => (h, { k with handles := hs })
  | [] => (⟨k.numbered + 1⟩, { k with numbered := k.numbered + 1 })

instance : Kernel Scripted where
  now := Scripted.now
  start _ _ := pure ()
  gather _ := do
    let (handle, k) := (← Action.get).deal
    Action.put k
    return handle

end Scripted

end TraceReplay
