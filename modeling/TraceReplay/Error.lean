/-
**Errors.**

Everything that can be wrong with a configuration, a trace or a run, as a value.  Errors that concern
one node's attributes only are *local*: a lenient run skips the node and goes on.

Main definitions:

* `FileFailure` — why a file gives no text;
* `DocumentFormat` — the formats a document can fail to be in;
* `ReplayError` — the errors;
* `ReplayError.message`, `ReplayError.isLocal` — their wording, and which of them are local;
* `Stop` — an error or a fault, whatever ends an action.
-/

import TraceReplay.Fault

set_option relaxedAutoImplicit false
set_option autoImplicit false

namespace TraceReplay

/-- Why a file gives no text. -/
inductive FileFailure where
  | missing
  | isDirectory
  | notDirectory
  | notText
  deriving DecidableEq, Repr

/-- The wording of a failure to read a file. -/
def FileFailure.message : FileFailure → String
  | missing => "No such file or directory (os error 2)"
  | isDirectory => "Is a directory (os error 21)"
  | notDirectory => "Not a directory (os error 20)"
  | notText => "stream did not contain valid UTF-8"

/-- The formats of documents. -/
inductive DocumentFormat where
  | json
  | yaml
  | toml
  deriving DecidableEq, Repr

/-- The name of a format. -/
def DocumentFormat.name : DocumentFormat → String
  | json => "JSON"
  | yaml => "YAML"
  | toml => "TOML"

/-- What can be wrong with a configuration, a trace or a run. -/
inductive ReplayError where
  /-- A setting that cannot be used. -/
  | config (reason : String)
  /-- An attribute with a value its node's class cannot have. -/
  | validation (node : NodeId) (reason : String)
  /-- An attribute that its node's class needs is absent. -/
  | missingAttribute (node : NodeId) (missing : String)
  /-- A collective that no kernel offers. -/
  | unsupportedCollective (node : NodeId) (kind : String)
  /-- A node that the cost model does not cover. -/
  | unsupported (reason : String)
  /-- A tensor is written a second time. -/
  | tensorRewritten (tensor : String) (node : NodeId)
  /-- A tensor is mentioned with two sizes. -/
  | tensorSizeMismatch (tensor : String) (recorded observed : Nat)
  /-- A tensor list is no list of names and sizes. -/
  | malformedTensorList (node : NodeId) (reason : String)
  /-- A node has started and not ended when the run is summed up. -/
  | unfinishedOperator (node : NodeId) (start : Tick)
  /-- The kernel has no events left, and nodes remain. -/
  | stalled (remaining : Nat)
  /-- No node has this id. -/
  | unknownNode (node : NodeId)
  /-- A trace cannot be loaded. -/
  | traceLoad (reason : String)
  /-- A file cannot be read. -/
  | file (failure : FileFailure)
  /-- A text is no document of the format, or not the document that was asked for. -/
  | malformed (format : DocumentFormat)
  /-- The engine contradicts itself. -/
  | internal (reason : String)
  deriving DecidableEq, Repr

namespace ReplayError

/-- The wording of an error. -/
def message : ReplayError → String
  | config reason => s!"Configuration error: {reason}"
  | validation node reason => s!"Node {node} failed validation: {reason}"
  | missingAttribute node missing => s!"Node {node} is missing required attribute '{missing}'"
  | unsupportedCollective node kind =>
      s!"Node {node} requests collective '{kind}' which has no simulated primitive"
  | unsupported reason => s!"Unsupported configuration: {reason}"
  | tensorRewritten tensor node =>
      s!"Tensor '{tensor}' written again by node {node}; tensors may only be written once"
  | tensorSizeMismatch tensor recorded observed =>
      s!"Tensor '{tensor}' size changed from {recorded} to {observed} bytes"
  | malformedTensorList node reason => s!"Node {node} has a malformed tensor list: {reason}"
  | unfinishedOperator node start => s!"Node {node} did not finish, start_time={start}"
  | stalled remaining =>
      s!"Kernel ran out of events with {remaining} node(s) still in the graph"
  | unknownNode node => s!"Unknown node id {node}"
  | traceLoad reason => s!"Failed to load trace: {reason}"
  | file failure => s!"IO error: {failure.message}"
  | malformed format => s!"{format.name} error"
  | internal reason => s!"Internal error: {reason}"

/-- Whether a lenient run may skip the node instead of stopping.  Only problems with one node's
attributes qualify; tensors that contradict each other stop every run. -/
def isLocal : ReplayError → Bool
  | validation .. | missingAttribute .. | unsupportedCollective .. | unsupported ..
  | malformedTensorList .. => true
  | _ => false

end ReplayError

/-- What ends an action: an error, after which others may follow, or a fault, after which none may. -/
inductive Stop where
  | error (e : ReplayError)
  | fault (f : Fault)
  deriving DecidableEq, Repr

instance : Coe ReplayError Stop := ⟨.error⟩

instance : Coe Fault Stop := ⟨.fault⟩

/-- The value of a calculation that can only fault, in a context that errors end too. -/
def orFault {α : Type} : Except Fault α → Except Stop α := Except.mapError Stop.fault

/-- The value of a calculation that can only fail, in a context that faults end too. -/
def orError {α : Type} : Except ReplayError α → Except Stop α := Except.mapError Stop.error

end TraceReplay
