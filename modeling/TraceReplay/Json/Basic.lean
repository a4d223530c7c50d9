/-
**JSON documents.**

A document is kept as it was written, as far as any reader of it can tell: numbers keep their sign,
digits and exponent, so that `1`, `1.0` and `-0` stay apart, objects keep the order of their members
and repeated names, and a text whose escapes name half of a surrogate pair is kept as a text that
spells nothing.  What a number or a repeated name means is decided by whoever reads the document.

Main definitions:

* `Json.Number`, `Json` — number literals and documents;
* `Json.Number.toNat?`, `Json.Number.toFloat?` — the two readings of a number;
* `Json.depth` — how deeply arrays and objects are nested;
* `Json.isClean` — every text spells something and every number is finite.
-/

import TraceReplay.Binary64.Read
import TraceReplay.Document.Dialect

set_option relaxedAutoImplicit false
set_option autoImplicit false

namespace TraceReplay

/-- A number literal. -/
structure Json.Number where
  /-- Whether it has a minus sign. -/
  negative : Bool
  /-- The digits in front of the point, as a number. -/
  whole : Nat
  /-- The digits behind the point; none if there is no point. -/
  fraction : List Digit
  /-- The power of ten, if one is written. -/
  exponent : Option Int
  deriving DecidableEq, Repr

/-- A document.  A text that spells nothing is `none`. -/
inductive Json where
  | null
  | bool (b : Bool)
  | number (n : Json.Number)
  | string (text : Option String)
  | array (items : List Json)
  | object (members : List (Option String × Json))
  deriving Inhabited

namespace Json

/-! ### Numbers -/

namespace Number

/-- A natural number as a literal. -/
def ofNat (n : Nat) : Number := ⟨false, n, [], none⟩

/-- The value of a literal without sign, point and exponent. -/
def toNat? (n : Number) : Option Nat :=
  if n.negative = false ∧ n.fraction = [] ∧ n.exponent = none then some n.whole else none

@[simp] theorem toNat?_ofNat (n : Nat) : (ofNat n).toNat? = some n := by simp [ofNat, toNat?]

/-- The nearest binary64 number, unless that is infinite. -/
def toFloat? (n : Number) : Option Float :=
  let mantissa := Decimal.valueFrom n.whole n.fraction
  (Binary64.ofDecimal? mantissa (n.exponent.getD 0 - n.fraction.length)).map fun x =>
    if n.negative then -x else x

end Number

/-! ### Building documents -/

/-- A natural number as a document. -/
def nat (n : Nat) : Json := .number (.ofNat n)

/-- A text as a document. -/
def text (s : String) : Json := .string (some s)

/-- An object with the given members. -/
def record (members : List (String × Json)) : Json :=
  .object (members.map fun m => (some m.1, m.2))

/-- A document for a value that may be absent. -/
def option {α : Type} (f : α → Json) : Option α → Json
  | none => .null
  | some a => f a

/-! ### Reading documents -/

/-- The natural number below `limit` that a document is. -/
def natBelow? (limit : Nat) : Json → Option Nat
  | .number n => n.toNat?.filter (· < limit)
  | _ => none

/-- The finite binary64 number that a document is. -/
def float? : Json → Option Float
  | .number n => n.toFloat?
  | _ => none

/-- The truth value that a document is. -/
def bool? : Json → Option Bool
  | .bool b => some b
  | _ => none

/-- The text that a document is. -/
def text? : Json → Option String
  | .string s => s
  | _ => none

/-- The items of an array. -/
def items? : Json → Option (List Json)
  | .array items => some items
  | _ => none

/-- A list of values of one kind. -/
def listOf? {α : Type} (f : Json → Option α) (j : Json) : Option (List α) :=
  j.items?.bind fun items => items.mapM f

/-- The members of an object all of whose names spell something. -/
def members? : Json → Option (Fields Json)
  | .object members => members.mapM fun m => m.1.map fun name => (name, m.2)
  | _ => none

/-- Whether a document is `null`. -/
def isNull : Json → Bool
  | .null => true
  | _ => false

/-- A value that may be absent, as `null`. -/
def optional? {α : Type} (f : Json → Option α) : Json → Option (Option α)
  | .null => some none
  | j => (f j).map some

/-! ### Nesting -/

mutual

/-- Levels of arrays and objects, the outermost included. -/
def depth : Json → Nat
  | .array items => depthOfItems items + 1
  | .object members => depthOfMembers members + 1
  | _ => 0

/-- The greatest depth among items. -/
def depthOfItems : List Json → Nat
  | [] => 0
  | j :: js => max (depth j) (depthOfItems js)

/-- The greatest depth among members. -/
def depthOfMembers : List (Option String × Json) → Nat
  | [] => 0
  | (_, j) :: ms => max (depth j) (depthOfMembers ms)

end

mutual

/-- Whether every text in a document spells something and every number is finite. -/
def isClean : Json → Bool
  | .number n => n.toFloat?.isSome
  | .string s => s.isSome
  | .array items => itemsClean items
  | .object members => membersClean members
  | _ => true

/-- `isClean` of every item. -/
def itemsClean : List Json → Bool
  | [] => true
  | j :: js => isClean j && itemsClean js

/-- `isClean` of every member and its name. -/
def membersClean : List (Option String × Json) → Bool
  | [] => true
  | (name, j) :: ms => name.isSome && isClean j && membersClean ms

end

end Json

end TraceReplay
