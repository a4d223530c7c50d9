/-
**Execution resources.**

A node in flight holds one slot of the resource of its class; receives and invalid nodes hold none.

Main definitions:

* `Resource` — the four resources, with their display names;
* `Resource.ofClass?` — the resource that a node class uses;
* `PerResource` — one value for each resource, used for capacities and for counts in flight.
-/

import TraceReplay.Trace.Class

set_option relaxedAutoImplicit false
set_option autoImplicit false

namespace TraceReplay

/-- What a node occupies while it is in flight. -/
inductive Resource where
  | cpuCompute
  | gpuCompute
  | communication
  | remoteMemory
  deriving DecidableEq, Repr

namespace Resource

/-- All resources, in the order in which they are listed everywhere. -/
def all : List Resource := [cpuCompute, gpuCompute, communication, remoteMemory]

/-- The name of a resource on display. -/
def display : Resource → String
  | cpuCompute => "cpu_comp_ops"
  | gpuCompute => "gpu_comp_ops"
  | communication => "comm_ops"
  | remoteMemory => "mem_ops"

/-- The resource that nodes of a class use. -/
def ofClass? : NodeClass → Option Resource
  | .cpuCompute => some cpuCompute
  | .gpuCompute => some gpuCompute
  | .collective | .send => some communication
  | .memLoad | .memStore => some remoteMemory
  | .receive | .invalid => none

end Resource

/-- One value for each resource. -/
structure PerResource (α : Type) where
  cpuCompute : α
  gpuCompute : α
  communication : α
  remoteMemory : α
  deriving DecidableEq, Repr

namespace PerResource

variable {α : Type}

/-- The same value for every resource. -/
def uniform (a : α) : PerResource α := ⟨a, a, a, a⟩

/-- The value of a resource. -/
def get (p : PerResource α) : Resource → α
  | .cpuCompute => p.cpuCompute
  | .gpuCompute => p.gpuCompute
  | .communication => p.communication
  | .remoteMemory => p.remoteMemory

/-- Replaces the value of one resource. -/
def set (p : PerResource α) (r : Resource) (a : α) : PerResource α :=
  match r with
  | .cpuCompute => { p with cpuCompute := a }
  | .gpuCompute => { p with gpuCompute := a }
  | .communication => { p with communication := a }
  | .remoteMemory => { p with remoteMemory := a }

/-- The values in the order of `Resource.all`. -/
def toList (p : PerResource α) : List α := Resource.all.map p.get

@[simp] theorem get_uniform (a : α) (r : Resource) : (uniform a).get r = a := by cases r <;> rfl

theorem get_set (p : PerResource α) (r r' : Resource) (a : α) :
    (p.set r a).get r' = if r' = r then a else p.get r' := by
  cases r <;> cases r' <;> rfl

end PerResource

end TraceReplay
