/-
**The statements of a TOML document.**

A document is a sequence of headers and entries.  A header says to which table the entries below it
belong; an entry gives one value, whose key may lead through tables of its own.  No value is given
twice, no table is opened twice, and a table opened by a header takes no entries through dots.

Main definitions:

* `Toml.insert?` — a table with one more entry;
* `Toml.open?`, `Toml.openNext?` — a document in which a header has opened a table;
* `Toml.Statement` — headers and entries;
* `Toml.ofStatements?` — the document that statements make.
-/

import TraceReplay.Toml.Basic

set_option relaxedAutoImplicit false
set_option autoImplicit false

namespace TraceReplay

namespace Toml

/-- A statement of a document. -/
inductive Statement where
  /-- The entries that follow belong to the table at a path. -/
  | opens (path : List String) (key : String)
  /-- The entries that follow belong to a new table at the end of the tables at a path. -/
  | opensNext (path : List String) (key : String)
  | entry (path : List String) (key : String) (value : Toml)

/-! ### Tables -/

/-- Entries in which a key has a value, in the place where it stood or at the end. -/
def replace (entries : List (String × Toml)) (key : String) (value : Toml) : List (String × Toml) :=
  match entries with
  | [] => [(key, value)]
  | e :: rest => if e.1 = key then (key, value) :: rest else e :: replace rest key value

/-- Changes the table at the end of a path, where `enter` says which tables may be passed through.
Tables that are missing are made.  From tables that headers opened the path goes on in the last. -/
def change? (enter : Origin → Bool) (missing : Origin) (f : Toml → Option Toml) :
    List String → Toml → Option Toml
  | [], v => f v
  | key :: path, table origin entries => do
      let inner ←
        match (entries.lookup key).getD (table missing []) with
        | tables items =>
            items.getLast?.bind fun last =>
              (change? enter missing f path last).map fun v => tables (items.dropLast ++ [v])
        | table inside under =>
            if enter inside then change? enter missing f path (table inside under) else none
        | _ => none
      return table origin (replace entries key inner)
  | _, _ => none

/-- Changes the table at the end of the path in a header.  A table in braces is complete. -/
def onPath? : (Toml → Option Toml) → List String → Toml → Option Toml :=
  change? (· ≠ .braces) .passage

/-- Adds an entry to a table.  Behind dots it goes only into a table that dots have made. -/
def insert? (path : List String) (key : String) (value : Toml) : Toml → Option Toml :=
  change? (fun origin => origin = .passage || origin = .dots) .dots
    (fun v =>
      match v with
      | table origin entries =>
          if (entries.lookup key).isNone ∧ (path = [] ∨ origin = .dots) then
            some (table origin (entries ++ [(key, value)]))
          else none
      | _ => none)
    path

/-- Opens the table at a path, which has only been passed through so far. -/
def open? (path : List String) (key : String) : Toml → Option Toml :=
  onPath? (fun v =>
    match v with
    | table origin entries =>
        match (entries.lookup key).getD (table .passage []) with
        | table .passage inner => some (table origin (replace entries key (table .header inner)))
        | _ => none
    | _ => none) path

/-- Opens a new table at the end of the tables at a path. -/
def openNext? (path : List String) (key : String) : Toml → Option Toml :=
  onPath? (fun v =>
    match v with
    | table origin entries =>
        match (entries.lookup key).getD (tables []) with
        | tables items =>
            some (table origin (replace entries key (tables (items ++ [table .header []]))))
        | _ => none
    | _ => none) path

/-- The table that entries in braces make. -/
def ofEntries? (entries : List (List String × String × Toml)) : Option Toml := do
  let v ← entries.foldlM (fun v (path, key, value) => insert? path key value v) (table .header [])
  match v with
  | table _ entries => return table .braces entries
  | _ => none

/-! ### Documents -/

/-- The document so far and the path of the table that takes entries. -/
structure Draft where
  document : Toml := table .header []
  current : List String := []

/-- Carries out a statement. -/
def Draft.add? (d : Draft) : Statement → Option Draft
  | .opens path key =>
      (open? path key d.document).map fun v => ⟨v, path ++ [key]⟩
  | .opensNext path key =>
      (openNext? path key d.document).map fun v => ⟨v, path ++ [key]⟩
  | .entry path key value =>
      (onPath? (insert? path key value) d.current d.document).map fun v => ⟨v, d.current⟩

/-- The document that statements make. -/
def ofStatements? (statements : List Statement) : Option Toml :=
  (statements.foldlM Draft.add? ({} : Draft)).map Draft.document

end Toml

end TraceReplay
