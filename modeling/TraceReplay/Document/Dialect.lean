/-
**One view of three document formats.**

Settings are read from JSON, YAML and TOML alike.  The formats differ in what a value is (a YAML
scalar has no type of its own, TOML has no null), and a dialect says how the values of one format
answer the questions that a reader of settings asks.

A record is written as named values.  A field that the record declares may be given once; whether it
may be left out, and what it is then, depends on the field.

Main definitions:

* `Fields` — named values, in the order written;
* `Fields.atMostOnce` — no declared field is given twice;
* `Fields.required?`, `Fields.withDefault?` — the value of a field;
* `Dialect` — the questions;
* `Dialect.record?` — the fields of a record, written by name or by position;
* `Dialect.optional?` — a value that may be absent.
-/

import TraceReplay.Error

set_option relaxedAutoImplicit false
set_option autoImplicit false

namespace TraceReplay

/-- Named values, in the order written. -/
abbrev Fields (V : Type) := List (String × V)

namespace Fields

variable {V α : Type}

/-- Whether none of the declared fields is given twice. -/
def atMostOnce (declared : List String) (fields : Fields V) : Bool :=
  declared.all fun name => (fields.filter fun f => f.1 = name).length ≤ 1

/-- The value of a field that has to be given. -/
def required? (fields : Fields V) (name : String) (read : V → Option α) : Option α :=
  (fields.lookup name).bind read

/-- The value of a field that may be left out. -/
def withDefault? (fields : Fields V) (name : String) (default : α) (read : V → Option α) :
    Option α :=
  match fields.lookup name with
  | none => some default
  | some v => read v

end Fields

/-- How the values of a document format are read. -/
structure Dialect (V : Type) where
  format : DocumentFormat
  /-- Whether a value says that there is none. -/
  isNull : V → Bool
  bool? : V → Option Bool
  /-- A natural number below a limit. -/
  natBelow? : Nat → V → Option Nat
  float? : V → Option Float
  text? : V → Option String
  /-- The name of a value without payload. -/
  variant? : V → Option String
  fields? : V → Option (Fields V)
  items? : V → Option (List V)
  /-- Whether a record written by position may have more items than fields. -/
  surplusAllowed : Bool

namespace Dialect

variable {V α : Type}

/-- The fields of a record: given by name, none of the declared ones twice, or by position in the
order of their declaration. -/
def record? (d : Dialect V) (declared : List String) (v : V) : Option (Fields V) :=
  match d.fields? v with
  | some fields => if fields.atMostOnce declared then some fields else none
  | none =>
      (d.items? v).bind fun items =>
        if d.surplusAllowed || items.length ≤ declared.length then some (declared.zip items)
        else none

/-- A value that may be absent. -/
def optional? (d : Dialect V) (read : V → Option α) (v : V) : Option (Option α) :=
  if d.isNull v then some none else (read v).map some

end Dialect

end TraceReplay
