/-
**YAML documents.**

A scalar has no type of its own: whether `5` is a number or a text depends on what is asked of it.
Only scalars without quotes can be numbers, truth values or nothing, unless a tag gives that type to
a block of lines.

A node can be repeated by an alias.  The alias names an anchor by its number, and a node may repeat
one that it stands in, so aliases are followed when they are asked for.

Main definitions:

* `Yaml`, `Yaml.Document` — nodes, and a document with the nodes that it can repeat;
* `Yaml.nat?`, `Yaml.float?`, `Yaml.bool?` — the readings of the text of a scalar;
* `Yaml.Document.dialect` — the dialect of YAML.
-/

import TraceReplay.Binary64.Read
import TraceReplay.Counter
import TraceReplay.Document.Dialect
import TraceReplay.Text.Radix
import TraceReplay.Yaml.Scalar
import TraceReplay.Yaml.Tag

set_option relaxedAutoImplicit false
set_option autoImplicit false

namespace TraceReplay

/-- A node of a document. -/
inductive Yaml where
  /-- A scalar; nothing at all is the empty one without quotes. -/
  | scalar (style : Yaml.Style) (tag : Option Yaml.Tag) (text : String)
  | sequence (items : List Yaml)
  | mapping (entries : List (Yaml × Yaml))
  /-- The node with a given number among those that can be repeated. -/
  | aliasOf (number : Nat)
  deriving Inhabited

namespace Yaml

/-- Nothing at all. -/
def empty : Yaml := scalar .plain none ""

/-! ### Scalars -/

/-- The natural number that a scalar writes: decimal without leading zeros, or to the base 16, 8 or 2
behind a mark, with an optional plus sign in front. -/
def nat? (s : String) : Option Nat :=
  let cs :=
    match s.toList with
    | '+' :: cs => cs
    | cs => cs
  match cs with
  | '0' :: 'x' :: ds => Radix.value? 16 ds
  | '0' :: 'o' :: ds => Radix.value? 8 ds
  | '0' :: 'b' :: ds => Radix.value? 2 ds
  | ['0'] => some 0
  | '0' :: _ => none
  | ds => Radix.value? 10 ds

/-- The number that a scalar writes; infinities and not-a-number have names. -/
def float? (s : String) : Option Float :=
  if [".inf", ".Inf", ".INF", "+.inf", "+.Inf", "+.INF"].contains s then some (1 / 0)
  else if ["-.inf", "-.Inf", "-.INF"].contains s then some (-1 / 0)
  else if [".nan", ".NaN", ".NAN"].contains s then some (0 / 0)
  else Binary64.read? s.toList

/-- The truth value that a scalar writes. -/
def bool? (s : String) : Option Bool :=
  if ["true", "True", "TRUE"].contains s then some true
  else if ["false", "False", "FALSE"].contains s then some false
  else none

/-- Whether a scalar names that there is no value. -/
def isNullName (s : String) : Bool := ["~", "null", "Null", "NULL"].contains s

/-- The text of a scalar that is read as a type: one without quotes, or lines kept as they are with
the tag of the type. -/
def textAs? (type : String) : Yaml → Option String
  | scalar .plain _ s => some s
  | scalar .literal tag s => if tag = some (Tag.core type) then some s else none
  | _ => none

/-- Whether a scalar says that there is no value.  With a tag it has to be that of this type, and the
text one of its names. -/
def isNull : Yaml → Bool
  | scalar .plain none s => s = "" || isNullName s
  | scalar .plain (some tag) s => tag = Tag.core "null" && isNullName s
  | _ => false

/-- The text of a scalar. -/
def text? : Yaml → Option String
  | scalar _ _ s => some s
  | _ => none

/-- The text of a scalar where there may also be none: the tag that says so allows no text. -/
def givenText? : Yaml → Option String
  | scalar .plain (some tag) s => if tag = Tag.core "null" then none else some s
  | v => v.text?

/-- The name of a value without payload: a local tag, behind which nothing follows, or the text of a
scalar. -/
def variant? : Yaml → Option String
  | scalar style tag s =>
      match tag.bind Tag.variant? with
      | some name => if style = .plain && (s = "" || isNullName s) then some name else none
      | none => some s
  | _ => none

/-! ### Documents -/

/-- A document: its outermost node, and the nodes that it can repeat.  Of two with the same number the
first counts. -/
structure Document where
  root : Yaml
  anchored : List (Nat × Yaml)

namespace Document

/-- The node that an alias repeats; all others stand for themselves. -/
def resolve (d : Document) : Yaml → Yaml
  | aliasOf number => (d.anchored.lookup number).getD (aliasOf number)
  | v => v

/-- The fields of a mapping whose keys are scalars.  Nothing at all has no fields. -/
def fields? (d : Document) (v : Yaml) : Option (Fields Yaml) :=
  match d.resolve v with
  | scalar .plain _ "" => some []
  | mapping entries => entries.mapM fun e => (d.resolve e.1).text?.map fun name => (name, e.2)
  | _ => none

/-- The dialect of YAML. -/
def dialect (d : Document) : Dialect Yaml where
  format := .yaml
  isNull v := isNull (d.resolve v)
  bool? v := ((d.resolve v).textAs? "bool").bind bool?
  natBelow? limit v := (((d.resolve v).textAs? "int").bind nat?).filter (· < limit)
  float? v := ((d.resolve v).textAs? "float").bind float?
  text? v := (d.resolve v).givenText?
  variant? v := (d.resolve v).variant?
  fields? := d.fields?
  items? _ := none
  surplusAllowed := false

end Document

end Yaml

end TraceReplay
