/-
**Tensor lists.**

A node lists the tensors it touches as names and sizes in alternation.  A size is a decimal numeral
that may be padded with white space: with any of the 25 characters that have the `White_Space` property
of the Unicode character database, not only with the ASCII ones.

Main definitions:

* `isBlank`, `trimBlank` — the property, and a text without the blanks at its two ends;
* `Tensor` — a name and a size;
* `Tensor.parseList` — the tensors of a list, or what is wrong with it;
* `Node.inputTensors`, `Node.outputTensors` — the tensors a node reads and writes.
-/

import TraceReplay.Counter
import TraceReplay.Error
import TraceReplay.Text.Decimal
import TraceReplay.Trace.Node

set_option relaxedAutoImplicit false
set_option autoImplicit false

namespace TraceReplay

/-! ### White space -/

/-- The ranges of code points with the `White_Space` property, ends included. -/
def blankRanges : List (Nat × Nat) :=
  [(0x9, 0xd), (0x20, 0x20), (0x85, 0x85), (0xa0, 0xa0), (0x1680, 0x1680), (0x2000, 0x200a),
    (0x2028, 0x2029), (0x202f, 0x202f), (0x205f, 0x205f), (0x3000, 0x3000)]

/-- Whether a character has the `White_Space` property. -/
def isBlank (c : Char) : Bool := blankRanges.any fun r => r.1 ≤ c.toNat && c.toNat ≤ r.2

/-- The characters without the blanks in front of and behind them. -/
def trimBlank (cs : List Char) : List Char :=
  ((cs.dropWhile isBlank).reverse.dropWhile isBlank).reverse

/-! ### Lists of tensors -/

/-- A tensor that a node touches. -/
structure Tensor where
  name : String
  size : Nat
  deriving DecidableEq, Repr

namespace Tensor

/-- The size written by a text: a numeral between blanks. -/
def readSize (text : String) : Except Decimal.Misread Nat :=
  Decimal.readChars Counter.limit (trimBlank text.toList)

/-- The tensors of names and sizes in alternation; the first bad size counts. -/
def parsePairs (node : NodeId) : List String → Except ReplayError (List Tensor)
  | name :: size :: rest =>
      match readSize size with
      | .error e =>
          .error (.malformedTensorList node s!"size '{size}' of tensor '{name}': {e.message}")
      | .ok n => (parsePairs node rest).map (⟨name, n⟩ :: ·)
  | _ => .ok []

/-- The tensors of a list.  A list of odd length is refused before any size is looked at. -/
def parseList (node : NodeId) (values : List String) : Except ReplayError (List Tensor) :=
  if values.length % 2 = 0 then parsePairs node values
  else
    .error (.malformedTensorList node s!"expected name/size pairs, got {values.length} entries")

end Tensor

namespace Node

/-- The tensors of one of a node's lists, which has to be there. -/
def tensorsOf (n : Node) (listName : String) : Option (List String) →
    Except ReplayError (List Tensor)
  | none => .error (.missingAttribute n.id listName)
  | some values => Tensor.parseList n.id values

/-- The tensors that a node reads. -/
def inputTensors (n : Node) : Except ReplayError (List Tensor) :=
  n.tensorsOf "inputs" n.attributes.inputs

/-- The tensors that a node writes. -/
def outputTensors (n : Node) : Except ReplayError (List Tensor) :=
  n.tensorsOf "outputs" n.attributes.outputs

end Node

end TraceReplay
