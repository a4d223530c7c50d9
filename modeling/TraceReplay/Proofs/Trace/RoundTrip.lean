/-
**Traces are read as they are written.**

A node is written with all its members, absent attributes as `null`.  The document of a node is read from its
text by `Json.parse?_render`, whatever is in the node's texts, so that what is left is the way from the
document to the node: the members have different names, each is found under its own, and what was written
for a value is read as that value again.  The one thing that the types do not say and reading insists on is
that numbers are counters.

Main definitions:

* `Attributes.InRange`, `Node.InRange` — every number of a node is a counter;
* `Node.fields` — the members that a node is written as.

Main results:

* `Json.optional?_option`, `Json.listOf?_map` — what is written for an optional value, or for a list, is
  read as it;
* `Attributes.ofMembers?_fields` — so are the attributes of a node;
* `Node.ofJson?_toJson` — a node is read from its document;
* `Graph.trace_read_back` — **nodes are read as they are written**, and the text of a list of nodes gives
  the graph, or the error, of the list.
-/

import TraceReplay.Proofs.Json.RoundTrip
import TraceReplay.Trace.Load

set_option relaxedAutoImplicit false
set_option autoImplicit false

namespace TraceReplay

/-! ### Members under their names -/

/-- Members with different names are not given twice. -/
theorem Fields.atMostOnce_of_nodup {V : Type} {fields : Fields V} (h : (fields.map Prod.fst).Nodup)
    (declared : List String) : fields.atMostOnce declared = true := by
  refine List.all_eq_true.2 fun name _ => decide_eq_true ?_
  calc (fields.filter fun f => f.1 = name).length
    _ = (fields.map Prod.fst).count name := by
        rw [List.count_eq_countP, List.countP_map, List.countP_eq_length_filter]
        rfl
    _ ≤ 1 := List.nodup_iff_count.1 h name

namespace Json

variable {α : Type}

theorem members?_record (fields : Fields Json) : (record fields).members? = some fields := by
  rw [record, members?]
  induction fields with
  | nil => rfl
  | cons f fs ih => rw [List.map_cons, List.mapM_cons, ih]; rfl

theorem natBelow?_nat {limit n : Nat} (h : n < limit) : natBelow? limit (nat n) = some n := by
  rw [nat, natBelow?, Number.toNat?_ofNat, Option.filter_some, decide_eq_true h]
  rfl

/-- A list is read item by item. -/
theorem listOf?_map {read : Json → Option α} {write : α → Json} {as : List α}
    (h : ∀ a ∈ as, read (write a) = some a) : listOf? read (.array (as.map write)) = some as := by
  rw [listOf?, items?, Option.bind_some]
  induction as with
  | nil => rfl
  | cons a as ih =>
      obtain ⟨ha, has⟩ := List.forall_mem_cons.1 h
      rw [List.map_cons, List.mapM_cons, ha, ih has]
      rfl

/-- A value that is there is not read as an absent one, because `null` is not written for it. -/
theorem optional?_option {read : Json → Option α} {write : α → Json} {value : Option α}
    (hread : ∀ a ∈ value, read (write a) = some a) (hnull : read .null = none) :
    optional? read (option write value) = some value := by
  cases value with
  | none => rfl
  | some a =>
      have ha := hread a rfl
      rw [option]
      cases hwritten : write a with
      | null =>
          rw [hwritten, hnull] at ha
          cases ha
      | _ =>
          rw [hwritten] at ha
          rw [optional?, ha]
          · rfl
          · simp

/-! ### Nesting -/

theorem depthOfItems_le {bound : Nat} {items : List Json} (h : ∀ j ∈ items, j.depth ≤ bound) :
    depthOfItems items ≤ bound := by
  induction items with
  | nil => exact Nat.zero_le bound
  | cons j js ih =>
      obtain ⟨hj, hjs⟩ := List.forall_mem_cons.1 h
      exact Nat.max_le.2 ⟨hj, ih hjs⟩

theorem depth_record_le {bound : Nat} {fields : Fields Json} (h : ∀ f ∈ fields, f.2.depth ≤ bound) :
    (record fields).depth ≤ bound + 1 := by
  refine Nat.succ_le_succ ?_
  induction fields with
  | nil => exact Nat.zero_le bound
  | cons f fs ih =>
      obtain ⟨hf, hfs⟩ := List.forall_mem_cons.1 h
      exact Nat.max_le.2 ⟨hf, ih hfs⟩

theorem depth_option_le {bound : Nat} {write : α → Json} (h : ∀ a, (write a).depth ≤ bound)
    (value : Option α) : (option write value).depth ≤ bound := by
  cases value with
  | none => exact Nat.zero_le bound
  | some a => exact h a

theorem depth_array_map_le {bound : Nat} {write : α → Json} (h : ∀ a, (write a).depth ≤ bound)
    (as : List α) : (Json.array (as.map write)).depth ≤ bound + 1 :=
  Nat.succ_le_succ (depthOfItems_le (List.forall_mem_map.2 fun a _ => h a))

/-- A text that is written for a document is read as what the document is read as. -/
theorem readAs_render {read : Json → Option α} {j : Json} {a : α} (h : read j = some a) :
    readAs read j.render = .ok a := by
  rw [readAs, parse?_render, Option.bind_some, h]

end Json

/-! ### Nodes -/

/-- Every number among some attributes is a counter, and a priority is a small one. -/
structure Attributes.InRange (a : Attributes) : Prop where
  runtime : ∀ n ∈ a.runtime, n < Counter.limit
  numOps : ∀ n ∈ a.numOps, n < Counter.limit
  tensorSize : ∀ n ∈ a.tensorSize, n < Counter.limit
  commSize : ∀ n ∈ a.commSize, n < Counter.limit
  commSrc : ∀ n ∈ a.commSrc, n < Counter.limit
  commDst : ∀ n ∈ a.commDst, n < Counter.limit
  commTag : ∀ n ∈ a.commTag, n < Counter.limit
  commPriority : ∀ n ∈ a.commPriority, n < Counter.smallLimit

/-- Every number of a node is a counter. -/
structure Node.InRange (n : Node) : Prop where
  id : n.id < Counter.limit
  dataDeps : ∀ p ∈ n.dataDeps, p < Counter.limit
  ctrlDeps : ∀ p ∈ n.ctrlDeps, p < Counter.limit
  attributes : n.attributes.InRange

variable {n : Node}

namespace Node

/-- The members that a node is written as. -/
def fields (n : Node) : Fields Json :=
  [("id", .nat n.id), ("name", .text n.name), ("type", .text n.kind.spelling),
    ("data_deps", .array (n.dataDeps.map .nat)), ("ctrl_deps", .array (n.ctrlDeps.map .nat))]
    ++ n.attributes.members

theorem toJson_eq_record (n : Node) : n.toJson = .record n.fields := rfl

/-- A node is written with every declared member, and with no other. -/
theorem map_fst_fields (n : Node) : n.fields.map Prod.fst = names ++ Attributes.names := rfl

theorem nodup_names : (names ++ Attributes.names).Nodup := by decide

end Node

namespace Attributes

/-- An attribute is read from the member that is written for it. -/
theorem field?_eq_some {α : Type} {fields : Fields Json} {name : String} {read : Json → Option α}
    {write : α → Json} {value : Option α} (hlookup : fields.lookup name = some (.option write value))
    (hread : ∀ a ∈ value, read (write a) = some a) (hnull : read .null = none) :
    field? fields name read = some value := by
  rw [field?, Fields.withDefault?, hlookup]
  exact Json.optional?_option hread hnull

/-- **The attributes of a node are read from its members.** -/
theorem ofMembers?_fields (h : n.attributes.InRange) : ofMembers? n.fields = some n.attributes := by
  have hcounter (name : String) {value : Option Nat} {limit : Nat}
      (hlookup : n.fields.lookup name = some (.option .nat value)) (hlt : ∀ n ∈ value, n < limit) :
      field? n.fields name (Json.natBelow? limit) = some value :=
    field?_eq_some hlookup (fun n hn => Json.natBelow?_nat (hlt n hn)) rfl
  have htexts (name : String) {value : Option (List String)}
      (hlookup : n.fields.lookup name = some (.option (fun ts => .array (ts.map .text)) value)) :
      field? n.fields name (Json.listOf? Json.text?) = some value :=
    field?_eq_some hlookup (fun ts _ => Json.listOf?_map fun _ _ => rfl) rfl
  have hisCpuOp : field? n.fields "is_cpu_op" Json.bool? = some n.attributes.isCpuOp :=
    field?_eq_some rfl (fun _ _ => rfl) rfl
  have htensorLoc : field? n.fields "tensor_loc" Json.text? = some n.attributes.tensorLoc :=
    field?_eq_some rfl (fun _ _ => rfl) rfl
  have hcommType : field? n.fields "comm_type" readKind? = some n.attributes.commType :=
    field?_eq_some rfl (fun k _ => CollectiveKind.ofName?_name k) rfl
  have hinvolvedDim : field? n.fields "involved_dim" (Json.listOf? Json.bool?)
      = some n.attributes.involvedDim :=
    field?_eq_some rfl (fun _ _ => Json.listOf?_map fun _ _ => rfl) rfl
  rw [ofMembers?, hisCpuOp, hcounter "runtime" rfl h.runtime, hcounter "num_ops" rfl h.numOps,
    hcounter "tensor_size" rfl h.tensorSize, htensorLoc, hcommType,
    hcounter "comm_size" rfl h.commSize, hcounter "comm_src" rfl h.commSrc,
    hcounter "comm_dst" rfl h.commDst, hcounter "comm_tag" rfl h.commTag,
    hcounter "comm_priority" rfl h.commPriority, hinvolvedDim, htexts "inputs" rfl,
    htexts "outputs" rfl]
  rfl

end Attributes

namespace Node

/-- **A node is read from its document.** -/
theorem ofJson?_toJson (h : n.InRange) : ofJson? n.toJson = some n := by
  have honce : guard (n.fields.atMostOnce (names ++ Attributes.names) = true) = some () :=
    if_pos (Fields.atMostOnce_of_nodup (by rw [map_fst_fields]; exact nodup_names) _)
  have hdeclared : guard ((n.fields.all fun f =>
      (names ++ Attributes.names).contains f.1 || f.2.isClean) = true) = some () := by
    refine if_pos (List.all_eq_true.2 fun f hf => ?_)
    have hname : f.1 ∈ names ++ Attributes.names := by
      rw [← map_fst_fields n]
      exact List.mem_map_of_mem hf
    rw [List.contains_iff_mem.2 hname, Bool.true_or]
  have hid : n.fields.required? "id" (Json.natBelow? Counter.limit) = some n.id :=
    Json.natBelow?_nat h.id
  have hname : n.fields.withDefault? "name" "" Json.text? = some n.name := rfl
  have hkind : (n.fields.required? "type" fun v => v.variant?.bind NodeKind.ofSpelling?) = some n.kind :=
    NodeKind.ofSpelling?_spelling n.kind
  have hdata : n.fields.withDefault? "data_deps" [] (Json.listOf? (Json.natBelow? Counter.limit))
      = some n.dataDeps :=
    Json.listOf?_map fun p hp => Json.natBelow?_nat (h.dataDeps p hp)
  have hctrl : n.fields.withDefault? "ctrl_deps" [] (Json.listOf? (Json.natBelow? Counter.limit))
      = some n.ctrlDeps :=
    Json.listOf?_map fun p hp => Json.natBelow?_nat (h.ctrlDeps p hp)
  have hattributes := Attributes.ofMembers?_fields h.attributes
  rw [ofJson?, toJson_eq_record, Json.members?_record, Option.bind_eq_bind, Option.bind_some, honce,
    hdeclared]
  dsimp only
  rw [hid, hname, hkind, hdata, hctrl, hattributes]
  rfl

/-- A node is nested at most two levels deep, for its members are at most lists of plain values. -/
theorem depth_toJson_le (n : Node) : n.toJson.depth ≤ 2 := by
  have hbool (b : Bool) : (Json.bool b).depth ≤ 0 := Nat.le_refl 0
  have hnat (n : Nat) : (Json.nat n).depth ≤ 0 := Nat.le_refl 0
  have htext (s : String) : (Json.text s).depth ≤ 0 := Nat.le_refl 0
  have hvalue {α : Type} {write : α → Json} (h : ∀ a, (write a).depth ≤ 0) (value : Option α) :
      (Json.option write value).depth ≤ 1 :=
    Json.depth_option_le (fun a => Nat.le_succ_of_le (h a)) value
  have hlist {α : Type} {write : α → Json} (h : ∀ a, (write a).depth ≤ 0) (value : Option (List α)) :
      (Json.option (fun as => .array (as.map write)) value).depth ≤ 1 :=
    Json.depth_option_le (Json.depth_array_map_le h) value
  refine Json.depth_record_le (List.forall_mem_append.2 ⟨?_, ?_⟩)
  · simp only [List.forall_mem_cons]
    exact ⟨Nat.le_succ_of_le (hnat _), Nat.le_succ_of_le (htext _), Nat.le_succ_of_le (htext _),
      Json.depth_array_map_le hnat _, Json.depth_array_map_le hnat _, List.forall_mem_nil _⟩
  · simp only [Attributes.members, List.forall_mem_cons]
    exact ⟨hvalue hbool _, hvalue hnat _, hvalue hnat _, hvalue hnat _, hvalue htext _,
      hvalue (fun k : CollectiveKind => htext k.name) _, hvalue hnat _, hvalue hnat _, hvalue hnat _, hvalue hnat _,
      hvalue hnat _, hlist hbool _, hlist htext _, hlist htext _, List.forall_mem_nil _⟩

theorem kept?_of_depth_le {j : Json} (h : j.depth ≤ Json.maxDepth) : kept? j = some j := if_pos h

/-- **A node is read as it is written.** -/
theorem read_render (h : n.InRange) : read n.render = .ok n := by
  have hkept : kept? n.toJson = some n.toJson :=
    kept?_of_depth_le (Nat.le_trans n.depth_toJson_le (by decide))
  refine Json.readAs_render ?_
  rw [hkept, Option.bind_some, ofJson?_toJson h]

/-- A list of nodes is read as it is written. -/
theorem readTrace_renderTrace {ns : List Node} (h : ∀ n ∈ ns, n.InRange) :
    readTrace (renderTrace ns) = .ok ns := by
  have hkept : kept? (.array (ns.map toJson)) = some (.array (ns.map toJson)) :=
    kept?_of_depth_le (Nat.le_trans (Json.depth_array_map_le depth_toJson_le ns) (by decide))
  refine Json.readAs_render ?_
  rw [hkept, Option.bind_some]
  exact Json.listOf?_map fun n hn => ofJson?_toJson (h n hn)

end Node

/-- **Traces are read as they are written.**  A node whose numbers are counters is read from its text, and
the text of a list of such nodes gives what the list gives: the graph, or the error that says why it has
none. -/
theorem Graph.trace_read_back :
    (∀ n : Node, n.InRange → Node.read n.render = .ok n) ∧
      ∀ ns : List Node, (∀ n ∈ ns, n.InRange) → ofText (Node.renderTrace ns) = ofNodes ns := by
  refine ⟨fun n h => Node.read_render h, fun ns h => ?_⟩
  rw [ofText, Node.readTrace_renderTrace h]
  rfl

/-- A node with greatest numbers, and with texts of characters that are escaped or take several bytes. -/
def Node.extreme : Node where
  id := 18446744073709551615
  name := "\x00\x08\t\n\x0c\r\x1f \"\\/\x7fé😀"
  kind := .collective
  dataDeps := [18446744073709551615, 0]
  ctrlDeps := []
  attributes :=
    { isCpuOp := some false
      numOps := some 18446744073709551615
      tensorLoc := some ""
      commType := some .allToAll
      commPriority := some 4294967295
      involvedDim := some [true, false]
      inputs := some []
      outputs := some ["null", "\""] }

theorem Node.inRange_extreme : extreme.InRange where
  id := by decide
  dataDeps := by decide
  ctrlDeps := by decide
  attributes := by constructor <;> decide

/-- The node is read back, and a list that names it twice is refused. -/
theorem Graph.trace_read_back_extreme :
    (Node.extreme.InRange ∧ Node.read Node.extreme.render = .ok Node.extreme) ∧
      (∀ n ∈ [Node.extreme, Node.extreme], n.InRange) ∧
        ofText (Node.renderTrace [Node.extreme, Node.extreme])
          = .error (.traceLoad "duplicate node id 18446744073709551615") := by
  have htwice : ∀ n ∈ [Node.extreme, Node.extreme], n.InRange := by
    simp [Node.inRange_extreme]
  refine ⟨⟨Node.inRange_extreme, trace_read_back.1 _ Node.inRange_extreme⟩, htwice, ?_⟩
  rw [trace_read_back.2 _ htwice]
  rfl

end TraceReplay
