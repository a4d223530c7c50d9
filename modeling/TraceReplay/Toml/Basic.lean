/-
**TOML documents.**

A document is a table.  Tables are put together from lines far apart, and how a table came about
decides who may add to it, so every table remembers that.

Main definitions:

* `Toml.Origin` — how a table came about;
* `Toml` — values;
* `Toml.dialect` — the dialect of TOML.
-/

import TraceReplay.Binary64.Read
import TraceReplay.Document.Dialect

set_option relaxedAutoImplicit false
set_option autoImplicit false

namespace TraceReplay

/-- How a table came about. -/
inductive Toml.Origin where
  /-- Written in braces, and complete with them. -/
  | braces
  /-- Opened by a header, as the document itself is by its beginning. -/
  | header
  /-- Passed through on the way to the table of another header. -/
  | passage
  /-- Passed through by a key with dots. -/
  | dots
  deriving DecidableEq, Repr

/-- A value of a document. -/
inductive Toml where
  | text (s : String)
  | integer (n : Int)
  | float (x : Float)
  | truth (b : Bool)
  /-- A date or a time.  No setting is one, so which it is does not matter. -/
  | moment
  /-- Items written in brackets. -/
  | array (items : List Toml)
  /-- Tables that headers in double brackets opened one after the other. -/
  | tables (items : List Toml)
  | table (origin : Toml.Origin) (entries : List (String × Toml))
  deriving Inhabited

namespace Toml

/-- The integer that a value is. -/
def integer? : Toml → Option Int
  | integer n => some n
  | _ => none

/-- The number that a value is; integers are numbers. -/
def float? : Toml → Option Float
  | float x => some x
  | integer n => (Binary64.ofDecimal? n.natAbs 0).map fun x => if n < 0 then -x else x
  | _ => none

/-- Whether a value is a collection with nothing in it. -/
def isVoid : Toml → Bool
  | array items | tables items => items.isEmpty
  | table _ entries => entries.isEmpty
  | _ => false

/-- The name of a value without payload: a text, or the key of a table with nothing behind it. -/
def variant? : Toml → Option String
  | text s => some s
  | table _ [(name, v)] => if v.isVoid then some name else none
  | _ => none

/-- The dialect of TOML. -/
def dialect : Dialect Toml where
  format := .toml
  isNull _ := false
  bool? v :=
    match v with
    | truth b => some b
    | _ => none
  natBelow? limit v := (v.integer?.bind Int.toNat?).filter (· < limit)
  float? := float?
  text? v :=
    match v with
    | text s => some s
    | _ => none
  variant? := variant?
  fields? v :=
    match v with
    | table _ entries => some entries
    | moment => some []
    | _ => none
  items? v :=
    match v with
    | array items | tables items => some items
    | _ => none
  surplusAllowed := true

end Toml

end TraceReplay
