/-
**What is recorded of tensors is a log of their mentions.**

A node that ends mentions the tensors that it has read and then those that it has written, in the order of
its lists.  The tracker keeps no list of mentions, but three tables; here it is shown that they say what
such a list says: the size of a tensor is the one of its first mention, so is its write unless that first
mention is a read, and its reads are its mentions as an input, in their order.  Recording fails exactly if
a mention contradicts an earlier one.

Main definitions:

* `Mention`, `Node.mentions` — a tensor as it stands in a list of a node, and the lists of a node;
* `Mention.Permits` — a mention does not contradict an earlier one;
* `Tracker.Logs` — the tables of a tracker say what a list of mentions says;
* `Tracker.Extends` — an action records some mentions, or finds a contradiction.

Main results:

* `Tracker.Logs.recordEnd` — closing the interval of a node records its mentions, or finds a contradiction;
* `Tracker.Logs.writes_of_write`, `Tracker.Logs.write_cases`, `Tracker.Logs.mem_readsOf_iff` — what the
  tables say of the writes and reads of a tensor.
-/

import TraceReplay.Proofs.Memory.Traffic

set_option relaxedAutoImplicit false
set_option autoImplicit false

namespace TraceReplay

open TraceReplay.Action

/-! ### Mentions -/

/-- A tensor as it stands in a list of a node that has ended. -/
structure Mention where
  isWrite : Bool
  tensor : Tensor
  activity : Activity

namespace Mention

variable {name : String} {e e' : Mention} {log : List Mention}

/-- A tensor that a node has read. -/
def ofRead (id : NodeId) (start finish : Tick) (t : Tensor) : Mention :=
  ⟨false, t, ⟨start, finish, some id⟩⟩

/-- A tensor that a node has written. -/
def ofWrite (id : NodeId) (start finish : Tick) (t : Tensor) : Mention :=
  ⟨true, t, ⟨start, finish, some id⟩⟩

/-- Whether a mention is one of a tensor. -/
def names (name : String) (e : Mention) : Bool := e.tensor.name = name

/-- What is taken for the write of a tensor that was not mentioned before. -/
def firstWrite (e : Mention) : Activity := if e.isWrite then e.activity else .assumed

/-- A later mention does not contradict this one: of the same tensor it gives the same size, and it does
not write it. -/
def Permits (e e' : Mention) : Prop :=
  e'.tensor.name = e.tensor.name → e'.tensor.size = e.tensor.size ∧ e'.isWrite = false

theorem names_iff : e.names name = true ↔ e.tensor.name = name := by simp [names]

/-- A tensor that is mentioned is mentioned for the first time. -/
theorem exists_find?_of_mem (he : e ∈ log) : ∃ first, log.find? (names e.tensor.name) = some first :=
  Option.isSome_iff_exists.1 (List.find?_isSome.2 ⟨e, he, names_iff.2 rfl⟩)

/-- All mentions of a tensor give the size that the first one gives. -/
theorem size_eq_of_find? : ∀ {log : List Mention}, log.Pairwise Permits →
    log.find? (names name) = some e → ∀ e' ∈ log, e'.tensor.name = name →
      e'.tensor.size = e.tensor.size
  | [], _, h, _, _, _ => by cases h
  | a :: log, hlog, h, e', he', hname => by
      obtain ⟨hfirst, hrest⟩ := List.pairwise_cons.1 hlog
      by_cases ha : a.names name = true
      · rw [List.find?_cons_of_pos ha] at h
        cases h
        rcases List.mem_cons.1 he' with rfl | he'
        · rfl
        · exact (hfirst e' he' (hname.trans (names_iff.1 ha).symm)).1
      · rw [List.find?_cons_of_neg ha] at h
        rcases List.mem_cons.1 he' with rfl | he'
        · exact absurd (names_iff.2 hname) ha
        · exact size_eq_of_find? hrest h e' he' hname

/-- A mention that writes is the first one of its tensor. -/
theorem find?_of_isWrite : ∀ {log : List Mention}, log.Pairwise Permits → e ∈ log →
    e.isWrite = true → log.find? (names e.tensor.name) = some e
  | [], _, h, _ => by cases h
  | a :: log, hlog, h, hwrite => by
      obtain ⟨hfirst, hrest⟩ := List.pairwise_cons.1 hlog
      rcases List.mem_cons.1 h with rfl | h
      · exact List.find?_cons_of_pos (names_iff.2 rfl)
      · have ha : ¬a.names e.tensor.name = true := fun ha => by
          obtain ⟨-, hread⟩ := hfirst e h (names_iff.1 ha).symm
          cases hread.symm.trans hwrite
        rw [List.find?_cons_of_neg ha]
        exact find?_of_isWrite hrest h hwrite

/-- A tensor may be mentioned for the first time in any way, -/
theorem pairwise_snoc_of_none (hlog : log.Pairwise Permits)
    (h : log.find? (names e.tensor.name) = none) : (log ++ [e]).Pairwise Permits := by
  refine List.pairwise_append.2 ⟨hlog, List.pairwise_singleton _ _, fun e' he' e'' he'' hname => ?_⟩
  rw [List.mem_singleton.1 he''] at hname
  exact absurd (names_iff.2 hname.symm) (List.find?_eq_none.1 h e' he')

/-- and later on as one that is read and has the size of the first mention. -/
theorem pairwise_snoc_of_some (hlog : log.Pairwise Permits)
    (h : log.find? (names e.tensor.name) = some e') :
    (log ++ [e]).Pairwise Permits ↔ e'.tensor.size = e.tensor.size ∧ e.isWrite = false := by
  have hname : e'.tensor.name = e.tensor.name := names_iff.1 (List.find?_some h)
  constructor
  · intro hall
    obtain ⟨-, -, hpermits⟩ := List.pairwise_append.1 hall
    obtain ⟨hsize, hread⟩ :=
      hpermits e' (List.mem_of_find?_eq_some h) e List.mem_cons_self hname.symm
    exact ⟨hsize.symm, hread⟩
  · rintro ⟨hsize, hread⟩
    refine List.pairwise_append.2 ⟨hlog, List.pairwise_singleton _ _, fun e₁ he₁ e₂ he₂ heq => ?_⟩
    rw [List.mem_singleton.1 he₂] at heq ⊢
    exact ⟨hsize.symm.trans (size_eq_of_find? hlog h e₁ he₁ heq.symm).symm, hread⟩

end Mention

namespace Node

/-- The tensors that a node reads, if its list can be read. -/
def readTensors (n : Node) : List Tensor := n.inputTensors.toOption.getD []

/-- The tensors that a node writes, if its list can be read. -/
def writtenTensors (n : Node) : List Tensor := n.outputTensors.toOption.getD []

/-- The mentions of a node that was active over an interval. -/
def mentions (n : Node) (start finish : Tick) : List Mention :=
  n.readTensors.map (Mention.ofRead n.id start finish) ++
    n.writtenTensors.map (Mention.ofWrite n.id start finish)

theorem mem_mentions {n : Node} {start finish : Tick} {e : Mention} : e ∈ n.mentions start finish ↔
    (e.isWrite = false ∧ e.tensor ∈ n.readTensors ∨ e.isWrite = true ∧ e.tensor ∈ n.writtenTensors) ∧
      e.activity = ⟨start, finish, some n.id⟩ := by
  obtain ⟨isWrite, tensor, activity⟩ := e
  simp only [mentions, Mention.ofRead, Mention.ofWrite, List.mem_append, List.mem_map, Mention.mk.injEq]
  cases isWrite <;> grind

end Node

/-! ### Tables -/

namespace Tracker

/-- The tables of a tracker say what a list of mentions says. -/
structure Logs (m : Tracker) (log : List Mention) : Prop where
  sizes : ∀ name, m.sizes.find? name =
    (log.find? (Mention.names name)).map fun e => e.tensor.size
  writes : ∀ name, m.writes.find? name = (log.find? (Mention.names name)).map Mention.firstWrite
  reads : ∀ name, m.readsOf name =
    (log.filter fun e => !e.isWrite && e.names name).map Mention.activity

/-- An action records some mentions, or finds that one of them contradicts an earlier one.  No interval is
opened or closed meanwhile. -/
def Extends (act : Action Stop Tracker Unit) (es : List Mention) : Prop :=
  ∀ (m : Tracker) (log : List Mention) (j : Array Entry), m.Logs log → log.Pairwise Mention.Permits →
    Ends act ⟨m, j⟩
      (fun _ t => (log ++ es).Pairwise Mention.Permits ∧ t.state.Logs (log ++ es) ∧
        t.state.opened = m.opened)
      fun _ _ => ¬(log ++ es).Pairwise Mention.Permits

theorem Extends.nil : Extends (pure ()) [] := fun m log j hlogs hlog => by
  rw [List.append_nil]
  exact ⟨hlog, hlogs, rfl⟩

theorem Extends.seq {act act' : Action Stop Tracker Unit} {es es' : List Mention}
    (h : Extends act es) (h' : Extends act' es') : Extends (act >>= fun _ => act') (es ++ es') := by
  intro m log j hlogs hlog
  rw [ends_bind, ← List.append_assoc]
  refine (h m log j hlogs hlog).imp ?_ fun _ _ hnot hall => hnot (List.pairwise_append.1 hall).1
  rintro _ ⟨m', j'⟩ ⟨hlog', hlogs', hopened⟩
  refine (h' m' _ j' hlogs' hlog').imp ?_ fun _ _ hnot => hnot
  rintro _ t ⟨hlog'', hlogs'', hopened'⟩
  exact ⟨hlog'', hlogs'', hopened'.trans hopened⟩

theorem Extends.forM {act : Tensor → Action Stop Tracker Unit} {mention : Tensor → Mention}
    (h : ∀ t, Extends (act t) [mention t]) : ∀ ts : List Tensor,
      Extends (ts.forM act) (ts.map mention)
  | [] => .nil
  | t :: ts => (h t).seq (Extends.forM h ts)

namespace Logs

variable {m m' : Tracker} {log : List Mention} {e : Mention} {name : String}

theorem initial (sysId : Nat) : Logs { sysId } [] := ⟨fun _ => rfl, fun _ => rfl, fun _ => rfl⟩

/-- The tables do not depend on the intervals that are open, nor on the timeline. -/
theorem congr (h : m.Logs log) (sizes : m'.sizes = m.sizes) (writes : m'.writes = m.writes)
    (reads : m'.reads = m.reads) : m'.Logs log where
  sizes := fun name => sizes ▸ h.sizes name
  writes := fun name => writes ▸ h.writes name
  reads := fun name => by rw [readsOf, reads, ← h.reads name, readsOf]

/-- Whether a tensor is known is whether it was mentioned. -/
theorem isKnown_eq (h : m.Logs log) (t : Tensor) : m.isKnown t =
    match log.find? (Mention.names t.name) with
    | none => .ok false
    | some e =>
        if e.tensor.size = t.size then .ok true
        else .error (.tensorSizeMismatch t.name e.tensor.size t.size) := by
  rw [isKnown, h.sizes]
  cases log.find? (Mention.names t.name) <;> rfl

/-- One more mention. -/
theorem snoc (h : m.Logs log)
    (sizes : ∀ name, m'.sizes.find? name =
      (m.sizes.find? name).or (if e.names name then some e.tensor.size else none))
    (writes : ∀ name, m'.writes.find? name =
      (m.writes.find? name).or (if e.names name then some e.firstWrite else none))
    (reads : ∀ name, m'.readsOf name =
      m.readsOf name ++ if !e.isWrite && e.names name then [e.activity] else []) :
    m'.Logs (log ++ [e]) where
  sizes := fun name => by
    rw [sizes, h.sizes, List.find?_append]
    cases log.find? (Mention.names name) with
    | some e => rfl
    | none => cases hnames : e.names name <;> simp [hnames]
  writes := fun name => by
    rw [writes, h.writes, List.find?_append]
    cases log.find? (Mention.names name) with
    | some e => rfl
    | none => cases hnames : e.names name <;> simp [hnames]
  reads := fun name => by
    rw [reads, h.reads, List.filter_append, List.map_append]
    cases hmatch : !e.isWrite && e.names name <;> simp [hmatch]

end Logs

/-! ### Recording -/

/-- A key that is new is found after its entry is made, and every other as before. -/
theorem find?_insert_new {β : Type} {m : SortedMap String β} {k : String} (new : m.find? k = none)
    (v : β) (k' : String) :
    (m.insert k v).find? k' = (m.find? k').or (if decide (k = k') then some v else none) := by
  rw [SortedMap.find?_insert]
  by_cases hk : k' = k
  · subst hk
    simp [new]
  · simp [hk, Ne.symm hk]

/-- Nothing need be done for a key that is there. -/
theorem find?_or_of_some {β : Type} {m : SortedMap String β} {k : String} {v₀ : β}
    (h : m.find? k = some v₀) (v : β) (k' : String) :
    m.find? k' = (m.find? k').or (if decide (k = k') then some v else none) := by
  by_cases hk : k = k'
  · rw [← hk, h]
    rfl
  · simp [hk]

theorem readsOf_addRead (m : Tracker) (name name' : String) (a : Activity) :
    (m.addRead name a).readsOf name' =
      m.readsOf name' ++ if decide (name = name') then [a] else [] := by
  rw [readsOf, addRead, SortedMap.find?_insert]
  by_cases h : name' = name
  · subst h
    simp
  · simp [h, Ne.symm h, readsOf]

namespace Logs

variable {m : Tracker} {log : List Mention} {e : Mention} {t : Tensor} {a : Activity}

/-- A tensor that is written is mentioned for the first time. -/
theorem enter (h : m.Logs log) (first : log.find? (Mention.names t.name) = none) :
    (m.enter t a).Logs (log ++ [⟨true, t, a⟩]) := by
  have hsize := h.sizes t.name
  have hwrite := h.writes t.name
  rw [first] at hsize hwrite
  exact h.snoc (find?_insert_new hsize t.size) (find?_insert_new hwrite a)
    fun _ => (List.append_nil _).symm

/-- A tensor that is read and was not mentioned before is taken to have been there. -/
theorem enter_addRead (h : m.Logs log) (first : log.find? (Mention.names t.name) = none) :
    ((m.enter t .assumed).addRead t.name a).Logs (log ++ [⟨false, t, a⟩]) := by
  have hsize := h.sizes t.name
  have hwrite := h.writes t.name
  rw [first] at hsize hwrite
  refine h.snoc (find?_insert_new hsize t.size) (find?_insert_new hwrite .assumed) fun name => ?_
  exact readsOf_addRead _ t.name name a

/-- A tensor that was mentioned before is read. -/
theorem addRead (h : m.Logs log) (before : log.find? (Mention.names t.name) = some e) :
    (m.addRead t.name a).Logs (log ++ [⟨false, t, a⟩]) := by
  have hsize := h.sizes t.name
  have hwrite := h.writes t.name
  rw [before] at hsize hwrite
  exact h.snoc (find?_or_of_some hsize t.size) (find?_or_of_some hwrite .assumed) fun name =>
    readsOf_addRead m t.name name a

end Logs

section

variable (id : NodeId) (start finish : Tick) (t : Tensor)

/-- Reading a tensor records a mention, unless that gives another size than before. -/
theorem extends_recordRead :
    Extends (recordRead id start finish t) [.ofRead id start finish t] := by
  intro m log j hlogs hlog
  simp only [recordRead, ends_bind, ends_get, hlogs.isKnown_eq]
  cases before : log.find? (Mention.names t.name) with
  | none =>
      exact ⟨Mention.pairwise_snoc_of_none hlog before, hlogs.enter_addRead before, rfl⟩
  | some e =>
      have hiff := Mention.pairwise_snoc_of_some (e := .ofRead id start finish t) hlog before
      by_cases hsize : e.tensor.size = t.size
      · simp only [hsize, ↓reduceIte]
        exact ⟨hiff.2 ⟨hsize, rfl⟩, hlogs.addRead before, rfl⟩
      · simp only [hsize, ↓reduceIte]
        exact fun hall => hsize (hiff.1 hall).1

/-- Writing a tensor records a mention, unless there is one already. -/
theorem extends_recordWrite :
    Extends (recordWrite id start finish t) [.ofWrite id start finish t] := by
  intro m log j hlogs hlog
  simp only [recordWrite, ends_bind, ends_get, hlogs.isKnown_eq]
  cases before : log.find? (Mention.names t.name) with
  | none =>
      exact ⟨Mention.pairwise_snoc_of_none hlog before, hlogs.enter before, rfl⟩
  | some e =>
      have hnot : ¬(log ++ [Mention.ofWrite id start finish t]).Pairwise Mention.Permits := by
        rw [Mention.pairwise_snoc_of_some hlog before]
        rintro ⟨-, ⟨⟩⟩
      by_cases hsize : e.tensor.size = t.size
      · simp only [hsize, ↓reduceIte]
        exact hnot
      · simp only [hsize, ↓reduceIte]
        exact hnot

end

variable {m : Tracker} {log : List Mention} {n : Node} {start : Tick}

/-- **Closing the interval of a node records its mentions**, or finds that one of them contradicts an
earlier one. -/
theorem Logs.recordEnd (h : m.Logs log) (hlog : log.Pairwise Mention.Permits)
    (interval : m.opened.find? n.id = some start) (inputs : ∃ ts, n.inputTensors = .ok ts)
    (outputs : ∃ ts, n.outputTensors = .ok ts) (tick : Tick) (j : Array Entry) :
    Ends (Tracker.recordEnd n tick) ⟨m, j⟩
      (fun _ t => (log ++ n.mentions start tick).Pairwise Mention.Permits ∧
        t.state.Logs (log ++ n.mentions start tick) ∧ t.state.opened = m.opened.erase n.id)
      fun _ _ => ¬(log ++ n.mentions start tick).Pairwise Mention.Permits := by
  obtain ⟨ins, hins⟩ := inputs
  obtain ⟨outs, houts⟩ := outputs
  have hmentions : n.mentions start tick =
      ins.map (.ofRead n.id start tick) ++ outs.map (.ofWrite n.id start tick) := by
    rw [Node.mentions, Node.readTensors, Node.writtenTensors, hins, houts]
    rfl
  rw [hmentions]
  simp only [Tracker.recordEnd, ends_bind, ends_get, interval, ends_put, hins, houts]
  have hrecords := (Extends.forM (extends_recordRead n.id start tick) ins).seq
    (Extends.forM (extends_recordWrite n.id start tick) outs)
  have hends := hrecords { m with opened := m.opened.erase n.id } log j (h.congr rfl rfl rfl) hlog
  rwa [ends_bind] at hends

/-! ### What the tables say -/

namespace Logs

variable {name : String} {w : Activity} {e : Mention}

/-- The write of a tensor that is written. -/
theorem writes_of_write (h : m.Logs log) (hlog : log.Pairwise Mention.Permits) (he : e ∈ log)
    (hwrite : e.isWrite = true) : m.writes.find? e.tensor.name = some e.activity := by
  rw [h.writes, Mention.find?_of_isWrite hlog he hwrite, Option.map_some, Mention.firstWrite,
    if_pos hwrite]

/-- A tensor that is mentioned has a write. -/
theorem writes_of_mem (h : m.Logs log) (he : e ∈ log) : ∃ w, m.writes.find? e.tensor.name = some w := by
  obtain ⟨e', he'⟩ := Mention.exists_find?_of_mem he
  exact ⟨_, by rw [h.writes, he']; rfl⟩

/-- The write of a tensor is that of a mention, or stands for a tensor that was there. -/
theorem write_cases (h : m.Logs log) (hw : m.writes.find? name = some w) :
    (∃ e ∈ log, e.isWrite = true ∧ e.tensor.name = name ∧ w = e.activity) ∨
      ∃ e ∈ log, e.isWrite = false ∧ e.tensor.name = name ∧ w = .assumed := by
  rw [h.writes, Option.map_eq_some_iff] at hw
  obtain ⟨e, hfirst, rfl⟩ := hw
  have hmem := List.mem_of_find?_eq_some hfirst
  have hname := Mention.names_iff.1 (List.find?_some hfirst)
  rw [Mention.firstWrite]
  cases hwrite : e.isWrite with
  | true => exact .inl ⟨e, hmem, hwrite, hname, rfl⟩
  | false => exact .inr ⟨e, hmem, hwrite, hname, rfl⟩

/-- The reads of a tensor are its mentions as an input. -/
theorem mem_readsOf_iff (h : m.Logs log) {a : Activity} : a ∈ m.readsOf name ↔
    ∃ e ∈ log, e.isWrite = false ∧ e.tensor.name = name ∧ e.activity = a := by
  simp only [h.reads, List.mem_map, List.mem_filter, Bool.and_eq_true, Bool.not_eq_true',
    Mention.names_iff, and_assoc]

end Logs

end Tracker

end TraceReplay
