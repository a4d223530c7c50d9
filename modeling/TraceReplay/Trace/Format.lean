/-
**Written form of traces.**

A trace is a JSON array of nodes, and a node is an object.  When a node is written all members are
there, absent attributes as `null`, in a fixed order; when it is read, members may come in any order,
attributes may be left out, and members that no node declares are passed over.

Main definitions:

* `Node.toJson` — the document of a node;
* `Node.ofJson?` — the node of a document;
* `Node.read`, `Node.readTrace` — the node, or the list of nodes, written by a text;
* `NodeClass.read`, `CollectiveKind.read` — the class, or the kind of collective, written by a text.
-/

import TraceReplay.Counter
import TraceReplay.Json.Printer
import TraceReplay.Json.Reader
import TraceReplay.Trace.Node

set_option relaxedAutoImplicit false
set_option autoImplicit false

namespace TraceReplay

namespace Attributes

/-- Names of the attributes, in the order in which they are written. -/
def names : List String :=
  ["is_cpu_op", "runtime", "num_ops", "tensor_size", "tensor_loc", "comm_type", "comm_size",
    "comm_src", "comm_dst", "comm_tag", "comm_priority", "involved_dim", "inputs", "outputs"]

/-- The members that attributes are written as. -/
def members (a : Attributes) : List (String × Json) :=
  [("is_cpu_op", Json.option .bool a.isCpuOp),
    ("runtime", Json.option .nat a.runtime),
    ("num_ops", Json.option .nat a.numOps),
    ("tensor_size", Json.option .nat a.tensorSize),
    ("tensor_loc", Json.option .text a.tensorLoc),
    ("comm_type", Json.option (fun k => .text k.name) a.commType),
    ("comm_size", Json.option .nat a.commSize),
    ("comm_src", Json.option .nat a.commSrc),
    ("comm_dst", Json.option .nat a.commDst),
    ("comm_tag", Json.option .nat a.commTag),
    ("comm_priority", Json.option .nat a.commPriority),
    ("involved_dim", Json.option (fun ds => .array (ds.map .bool)) a.involvedDim),
    ("inputs", Json.option (fun ts => .array (ts.map .text)) a.inputs),
    ("outputs", Json.option (fun ts => .array (ts.map .text)) a.outputs)]

/-- A kind of collective as an attribute.  A kind written as an object may have an empty object
behind its name as well as `null`. -/
def readKind? (j : Json) : Option CollectiveKind :=
  let name :=
    match j with
    | .object [(name, .object [])] => name
    | j => j.variant?
  name.bind CollectiveKind.ofName?

/-- An attribute, which is absent if it is left out or `null`. -/
def field? {α : Type} (fields : Fields Json) (name : String) (read : Json → Option α) :
    Option (Option α) :=
  fields.withDefault? name none (Json.optional? read)

/-- The attributes given by members. -/
def ofMembers? (fields : Fields Json) : Option Attributes := do
  let counter := Json.natBelow? Counter.limit
  let texts := Json.listOf? Json.text?
  return {
    isCpuOp := ← field? fields "is_cpu_op" Json.bool?
    runtime := ← field? fields "runtime" counter
    numOps := ← field? fields "num_ops" counter
    tensorSize := ← field? fields "tensor_size" counter
    tensorLoc := ← field? fields "tensor_loc" Json.text?
    commType := ← field? fields "comm_type" readKind?
    commSize := ← field? fields "comm_size" counter
    commSrc := ← field? fields "comm_src" counter
    commDst := ← field? fields "comm_dst" counter
    commTag := ← field? fields "comm_tag" counter
    commPriority := ← field? fields "comm_priority" (Json.natBelow? Counter.smallLimit)
    involvedDim := ← field? fields "involved_dim" (Json.listOf? Json.bool?)
    inputs := ← field? fields "inputs" texts
    outputs := ← field? fields "outputs" texts }

end Attributes

namespace Node

/-- Names of a node's own members, in the order in which they are written. -/
def names : List String := ["id", "name", "type", "data_deps", "ctrl_deps"]

/-- The document of a node. -/
def toJson (n : Node) : Json :=
  .record <|
    [("id", .nat n.id), ("name", .text n.name), ("type", .text n.kind.spelling),
      ("data_deps", .array (n.dataDeps.map .nat)), ("ctrl_deps", .array (n.ctrlDeps.map .nat))]
      ++ n.attributes.members

/-- The node of a document.  Members that are not declared have to be well formed all the same, for
they are kept until the end of the object. -/
def ofJson? (j : Json) : Option Node := do
  let fields ← j.members?
  guard (fields.atMostOnce (names ++ Attributes.names))
  guard (fields.all fun f => (names ++ Attributes.names).contains f.1 || f.2.isClean)
  let counter := Json.natBelow? Counter.limit
  return {
    id := ← fields.required? "id" counter
    name := ← fields.withDefault? "name" "" Json.text?
    kind := ← fields.required? "type" fun v => v.variant?.bind NodeKind.ofSpelling?
    dataDeps := ← fields.withDefault? "data_deps" [] (Json.listOf? counter)
    ctrlDeps := ← fields.withDefault? "ctrl_deps" [] (Json.listOf? counter)
    attributes := ← Attributes.ofMembers? fields }

/-- A document that may be kept as a whole. -/
def kept? (j : Json) : Option Json := if j.depth ≤ Json.maxDepth then some j else none

/-- The node written by a text. -/
def read : String → Except ReplayError Node := Json.readAs fun j => (kept? j).bind ofJson?

/-- The nodes written by a text. -/
def readTrace : String → Except ReplayError (List Node) :=
  Json.readAs fun j => (kept? j).bind (Json.listOf? ofJson?)

/-- The text of a node. -/
def render (n : Node) : String := n.toJson.render

/-- The text of a list of nodes. -/
def renderTrace (ns : List Node) : String := (Json.array (ns.map toJson)).render

end Node

/-- The class written by a text. -/
def NodeClass.read : String → Except ReplayError NodeClass :=
  Json.readAs fun j => j.variant?.bind NodeClass.ofSpelling?

/-- The kind of collective written by a text. -/
def CollectiveKind.read : String → Except ReplayError CollectiveKind :=
  Json.readAs fun j => j.variant?.bind CollectiveKind.ofName?

end TraceReplay
