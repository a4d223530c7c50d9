/-
**Reading YAML documents.**

The tokens of a text are read by the grammar: a node is a scalar, an alias, or a collection, with an
anchor and a tag in front.  Where the grammar allows a node and none comes, there is an empty one.
A text holds one document at most.

The number of an anchor is the number of different names used for anchors before it.  Where a name is
used again two nodes can have the same number; then the one that begins later counts.

Main definitions:

* `Yaml.Reading` — readers of tokens;
* `Yaml.node` — the node that comes next;
* `Yaml.document` — the document that tokens write;
* `Yaml.parse?` — the document that a text writes.
-/

import TraceReplay.SortedMap
import TraceReplay.Yaml.Basic
import TraceReplay.Yaml.Token

set_option relaxedAutoImplicit false
set_option autoImplicit false

namespace TraceReplay

namespace Yaml

/-- What is left to read, and what has been named. -/
structure Progress where
  tokens : List Token
  /-- The numbers of the anchors. -/
  names : SortedMap String Nat := ∅
  /-- The nodes with an anchor, the one that begins last first. -/
  anchored : List (Nat × Yaml) := []
  handles : Handles := []

/-- Readers of tokens. -/
abbrev Reading := StateT Progress Option

namespace Reading

/-- The token that comes next, unless all are read. -/
def peek : Reading (Option Token) := return (← get).tokens.head?

/-- Drops the token that comes next. -/
def skip : Reading Unit := modify fun p => { p with tokens := p.tokens.drop 1 }

/-- Drops a token that has to come next. -/
def expect (t : Token) : Reading Unit := do
  if (← peek) = some t then skip else failure

/-- What a reader reads, or the empty node in front of some tokens. -/
def orEmpty (stops : List Token) (read : Reading Yaml) : Reading Yaml := do
  match ← peek with
  | some t => if stops.contains t then return empty else read
  | none => read

/-- What a reader reads behind a colon, and nothing at all without one. -/
def behindColon (read : Reading Yaml) : Reading Yaml := do
  match ← peek with
  | some .value => do
      skip
      read
  | _ => return empty

/-- An anchor, if one comes next. -/
def anchor : Reading (Option String) := do
  match ← peek with
  | some (.anchor name) => do
      skip
      return some name
  | _ => return none

/-- A tag, if one comes next; its handle has to stand for something. -/
def tag : Reading (Option Tag) := do
  match ← peek with
  | some (.tag written) =>
      match (← get).handles.resolve? written with
      | some t => do
          skip
          return some t
      | none => failure
  | _ => return none

/-- An anchor and a tag, in either order. -/
def properties : Reading (Option String × Option Tag) := do
  let before ← anchor
  let t ← tag
  let name ← if before.isNone then anchor else pure before
  return (name, t)

/-- The alias for a name that an anchor has given. -/
def aliasTo (name : String) : Reading Yaml := do
  match (← get).names.find? name with
  | some number => return .aliasOf number
  | none => failure

/-- What a reader reads, kept under the number of an anchor. -/
def named (name : Option String) (read : Reading Yaml) : Reading Yaml := do
  match name with
  | none => read
  | some name =>
      let before ← get
      let number := before.names.size
      set { before with names := before.names.insert name number }
      let v ← read
      modify fun p =>
        let inside := p.anchored.take (p.anchored.length - before.anchored.length)
        { p with anchored := inside ++ (number, v) :: before.anchored }
      return v

end Reading

open Reading

mutual

/-- The node that comes next.  `block` says that it may be a collection by indentation, and `dashes`
that the items of one may come without a token for its beginning. -/
def node : Nat → Bool → Bool → Reading Yaml
  | 0, _, _ => failure
  | fuel + 1, block, dashes => do
      match ← peek with
      | some (.aliasOf name) => do
          skip
          aliasTo name
      | _ =>
          let (name, tag) ← properties
          named name (content fuel block dashes (name.isSome || tag.isSome) tag)

/-- What comes behind the anchor and the tag of a node. -/
def content : Nat → Bool → Bool → Bool → Option Tag → Reading Yaml
  | 0, _, _, _, _ => failure
  | fuel + 1, block, dashes, mayBeEmpty, tag => do
      match ← peek with
      | some (.scalar style text) => do
          skip
          return .scalar style tag text
      | some .flowSequence => do
          skip
          return .sequence (← flowItems fuel true)
      | some .flowMapping => do
          skip
          return .mapping (← flowEntries fuel true)
      | some .blockSequence => do
          if !block then failure
          skip
          return .sequence (← blockItems fuel)
      | some .blockMapping => do
          if !block then failure
          skip
          return .mapping (← blockEntries fuel)
      | some .item => do
          if dashes then return .sequence (← dashedItems fuel)
          else if mayBeEmpty then return .scalar .plain tag ""
          else failure
      | _ => if mayBeEmpty then return .scalar .plain tag "" else failure

/-- The items of a sequence by indentation, and its end. -/
def blockItems : Nat → Reading (List Yaml)
  | 0 => failure
  | fuel + 1 => do
      match ← peek with
      | some .item => do
          skip
          let v ← orEmpty [.item, .blockEnd] (node fuel true false)
          return v :: (← blockItems fuel)
      | some .blockEnd => do
          skip
          return []
      | _ => failure

/-- The items of a sequence whose dashes stand in the column of the key in front of them. -/
def dashedItems : Nat → Reading (List Yaml)
  | 0 => failure
  | fuel + 1 => do
      match ← peek with
      | some .item => do
          skip
          let v ← orEmpty [.item, .key, .value, .blockEnd] (node fuel true false)
          return v :: (← dashedItems fuel)
      | _ => return []

/-- The entries of a mapping by indentation, and its end. -/
def blockEntries : Nat → Reading (List (Yaml × Yaml))
  | 0 => failure
  | fuel + 1 => do
      match ← peek with
      | some .key => do
          skip
          let k ← orEmpty [.key, .value, .blockEnd] (node fuel true true)
          let v ← behindColon (orEmpty [.key, .value, .blockEnd] (node fuel true true))
          return (k, v) :: (← blockEntries fuel)
      | some .blockEnd => do
          skip
          return []
      | _ => failure

/-- The items of a sequence in brackets and its end; `first` says that none has come yet. -/
def flowItems : Nat → Bool → Reading (List Yaml)
  | 0, _ => failure
  | fuel + 1, first => do
      match ← peek with
      | some .flowSequenceEnd => do
          skip
          return []
      | _ => do
          if !first then expect .comma
          match ← peek with
          | some .flowSequenceEnd => do
              skip
              return []
          | some .key => do
              skip
              let entry ← flowPair fuel
              return .mapping [entry] :: (← flowItems fuel false)
          | _ => do
              let v ← node fuel false false
              return v :: (← flowItems fuel false)

/-- The entry that stands for an item in brackets.  Where a comma, a bracket or a colon stands in the
place of the key, the key is empty and that token is dropped. -/
def flowPair : Nat → Reading (Yaml × Yaml)
  | 0 => failure
  | fuel + 1 => do
      let k ←
        match ← peek with
        | some .value | some .comma | some .flowSequenceEnd => do
            skip
            pure empty
        | _ => node fuel false false
      let v ← behindColon (orEmpty [.comma, .flowSequenceEnd] (node fuel false false))
      return (k, v)

/-- The entries of a mapping in braces and its end; `first` says that none has come yet. -/
def flowEntries : Nat → Bool → Reading (List (Yaml × Yaml))
  | 0, _ => failure
  | fuel + 1, first => do
      match ← peek with
      | some .flowMappingEnd => do
          skip
          return []
      | _ => do
          if !first then expect .comma
          match ← peek with
          | some .flowMappingEnd => do
              skip
              return []
          | some .key => do
              skip
              let k ← orEmpty [.value, .comma, .flowMappingEnd] (node fuel false false)
              let v ← behindColon (orEmpty [.comma, .flowMappingEnd] (node fuel false false))
              return (k, v) :: (← flowEntries fuel false)
          | _ => do
              let k ← node fuel false false
              return (k, empty) :: (← flowEntries fuel false)

end

/-- The directives in front of a document; `versioned` says that the version has been given.  It is
given once at most and has to be 1.1 or 1.2, and no handle is given twice. -/
def directives : Nat → Bool → Reading Unit
  | 0, _ => failure
  | fuel + 1, versioned => do
      match ← peek with
      | some (.version major minor) => do
          if versioned || major ≠ 1 || (minor ≠ 1 && minor ≠ 2) then failure
          skip
          directives fuel true
      | some (.tagHandle handle start) => do
          let p ← get
          if (p.handles.lookup handle).isSome then failure
          set { p with handles := (handle, start) :: p.handles }
          skip
          directives fuel versioned
      | _ => return ()

/-- The outermost node of a document behind its directives.  Behind the marker that begins a document
there may be nothing. -/
def explicitRoot (fuel : Nat) : Reading Yaml := do
  directives fuel false
  expect .documentStart
  match ← peek with
  | none => return empty
  | some .documentEnd => return empty
  | _ => node fuel true false

/-- The document that tokens write, with its marker or without.  Three units of fuel for each token and
three more are always enough: a reader that drops none calls at most two others before one is dropped. -/
def document (fuel : Nat) : Reading Document := do
  let root ←
    match ← peek with
    | none => pure empty
    | some (.version _ _) | some (.tagHandle _ _) | some .documentStart => explicitRoot fuel
    | _ => node fuel true false
  let p ← get
  if p.tokens.all (· = .documentEnd) then return ⟨root, p.anchored⟩ else failure

/-- The document that a text writes. -/
def parse? (text : String) : Option Document := do
  let tokens ← tokens? (← cells? text)
  (document (3 * tokens.length + 3)).run' { tokens }

end Yaml

end TraceReplay
