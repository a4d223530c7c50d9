/-
**Loading traces and communicator groups.**

Main definitions:

* `Graph.ofText` — the graph of a trace written by a text;
* `Graph.load`, `Graph.loadForSystem` — the graph of a trace file, and of the trace file of a system;
* `Group.ofText`, `Group.load` — the communicator group that a system is in.
-/

import TraceReplay.FileTree
import TraceReplay.Trace.Format
import TraceReplay.Trace.Graph

set_option relaxedAutoImplicit false
set_option autoImplicit false

namespace TraceReplay

namespace Graph

/-- The graph of a trace written by a text. -/
def ofText (text : String) : Except ReplayError Graph := Node.readTrace text >>= ofNodes

/-- The graph of the trace in a file. -/
def load (files : FileTree) (path : String) : Except ReplayError Graph :=
  match files.read path with
  | .ok text => ofText text
  | .error .missing => .error (.traceLoad s!"workload file: {path} does not exist")
  | .error e => .error (.traceLoad s!"workload file: {path} access error: {e.message}")

/-- The graph of the trace of one system. -/
def loadForSystem (files : FileTree) (stem : String) (sysId : Nat) : Except ReplayError Graph :=
  load files s!"{stem}.{sysId}.json"

end Graph

namespace Group

/-- The groups of a document, ascending by name; the last group of a name counts. -/
def all? (j : Json) : Option (SortedMap String (List Nat)) := do
  let fields ← j.members?
  let groups ← fields.mapM fun f => do
    return (f.1, ← Json.listOf? (Json.natBelow? Counter.limit) f.2)
  return groups.foldl (fun m g => m.insert g.1 g.2) ∅

/-- A group that a system is in takes the place of the one selected before it.  Its name has to be a
number. -/
def select (sysId : Nat) (selected : Option Group) (named : String × List Nat) :
    Except ReplayError (Option Group) :=
  if named.2.contains sysId then
    match Decimal.read Counter.limit named.1 with
    | .ok id => .ok (some ⟨id, named.2⟩)
    | .error e => .error (.config s!"communicator group id '{named.1}': {e.message}")
  else .ok selected

/-- The group of a text that a system is in: of several, the last in the order of names. -/
def ofText (text : String) (sysId : Nat) : Except ReplayError (Option Group) := do
  let groups ← Json.readAs all? text
  groups.toList.foldlM (select sysId) none

/-- Whether some characters occur within others. -/
def occursIn (part : List Char) : List Char → Bool
  | [] => part.isEmpty
  | c :: cs => part.isPrefixOf (c :: cs) || occursIn part cs

/-- The group of a file that a system is in.  A path that contains the word `empty` stands for no
groups. -/
def load (files : FileTree) (path : String) (sysId : Nat) : Except ReplayError (Option Group) :=
  if occursIn "empty".toList path.toList then .ok none
  else
    match files.read path with
    | .ok text => ofText text sysId
    | .error e => .error (.file e)

end Group

end TraceReplay
