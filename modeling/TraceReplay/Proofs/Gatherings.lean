/-
**A node is done with the last of its handles.**

A node may have several handles out, and handles of several nodes go out and finish in any order; a
handle that has finished may go out again, for another node.  Two tables are kept of this, from handles to
nodes and from nodes to numbers of handles.  Here both are compared with the calls that were made: a handle
is out for the node for which it went out and has not finished since, and a node has the class that came
with the handle that went out when it had none.

Main definitions:

* `Gatherings.Call` — a handle goes out, or finishes;
* `Gatherings.Out` — after some calls a handle is out for a node;
* `Gatherings.OpenedAs` — after some calls a node has handles out, of which the first came with a class;
* `Gatherings.Lawful` — only handles that are not out go out, and only those that are finish;
* `Gatherings.Follows` — the two tables say what the calls say.

Main results:

* `Gatherings.OpenedAs.unique` — the class is determined by the calls;
* `Gatherings.Follows.register`, `Gatherings.Follows.complete` — each call keeps the tables;
* `Gatherings.Lawful.ends_calls` — so all calls return, and the tables say what they came to;
* `Gatherings.answered_with_last` — **a node is reported with the last of its handles**, and its count is
  the number of them.
-/

import TraceReplay.InFlight
import TraceReplay.Proofs.Action
import TraceReplay.Proofs.SortedMap

set_option relaxedAutoImplicit false
set_option autoImplicit false

namespace TraceReplay

open TraceReplay.Action

theorem Handle.index_inj {h h' : Handle} : h.index = h'.index ↔ h = h' := by
  cases h
  cases h'
  simp

namespace Gatherings

/-! ### Calls -/

/-- A call that changes which handles are out. -/
inductive Call where
  | register (handle : Handle) (node : NodeId) (nodeClass : NodeClass)
  | complete (handle : Handle)
  deriving DecidableEq

/-- What a call does. -/
def Call.act : Call → Action Fault Gatherings Unit
  | register handle node nodeClass => do
      let g ← Action.get
      Action.put (← Action.lift (g.register handle node nodeClass))
  | complete handle => do
      let _ ← Gatherings.complete handle

/-- After some calls a handle is out for a node: it went out for it and has not finished since. -/
def Out (calls : List Call) (handle : Handle) (node : NodeId) : Prop :=
  ∃ before c after, calls = before ++ .register handle node c :: after ∧ .complete handle ∉ after

/-- After some calls a node has handles out, of which the first went out with a class: before it there
were none, and from then on there has always been one. -/
def OpenedAs (calls : List Call) (node : NodeId) (c : NodeClass) : Prop :=
  ∃ before handle after, calls = before ++ .register handle node c :: after ∧
    (∀ other, ¬Out before other node) ∧
    ∀ since, since <+: after → ∃ other, Out (before ++ .register handle node c :: since) other node

/-- Calls in which a handle goes out only if it is not out, and finishes only if it is. -/
inductive Lawful : List Call → Prop
  | nil : Lawful []
  | register {calls : List Call} (h : Lawful calls) (handle : Handle)
      (new : ∀ node, ¬Out calls handle node) (node : NodeId) (c : NodeClass) :
      Lawful (calls ++ [.register handle node c])
  | complete {calls : List Call} (h : Lawful calls) {handle : Handle} {node : NodeId}
      (out : Out calls handle node) : Lawful (calls ++ [.complete handle])

variable {calls : List Call} {handle handle' : Handle} {node node' : NodeId} {c c' : NodeClass}

/-! ### What calls come to -/

theorem not_out_nil : ¬Out [] handle node := by
  rintro ⟨before, c, after, hsplit, -⟩
  exact List.append_ne_nil_of_right_ne_nil _ (List.cons_ne_nil _ _) hsplit.symm

/-- Calls that end with one more split there, or before it. -/
theorem snoc_eq_iff {call call' : Call} {before after : List Call} :
    calls ++ [call] = before ++ call' :: after ↔
      (call = call' ∧ calls = before ∧ after = []) ∨
        ∃ between, after = between ++ [call] ∧ calls = before ++ call' :: between := by
  constructor
  · intro h
    rcases List.eq_nil_or_concat after with rfl | ⟨between, last, rfl⟩
    · obtain ⟨hcalls, hcall⟩ := List.append_inj' h rfl
      exact .inl ⟨List.singleton_inj.1 hcall, hcalls, rfl⟩
    · rw [List.concat_eq_append, ← List.cons_append, ← List.append_assoc] at h
      obtain ⟨hcalls, hlast⟩ := List.append_inj' h rfl
      cases List.singleton_inj.1 hlast
      exact .inr ⟨between, List.concat_eq_append, hcalls⟩
  · rintro (⟨rfl, rfl, rfl⟩ | ⟨between, rfl, rfl⟩)
    · rfl
    · rw [List.append_assoc, List.cons_append]

/-- A handle that goes out is out. -/
theorem out_register : Out (calls ++ [.register handle node c]) handle' node' ↔
    (handle' = handle ∧ node' = node) ∨ Out calls handle' node' := by
  simp only [Out, snoc_eq_iff]
  constructor
  · rintro ⟨before, c', after, ⟨heq, -, -⟩ | ⟨between, rfl, hcalls⟩, hdone⟩
    · cases heq
      exact .inl ⟨rfl, rfl⟩
    · exact .inr ⟨before, c', between, hcalls, fun h => hdone (List.mem_append_left _ h)⟩
  · rintro (⟨rfl, rfl⟩ | ⟨before, c', between, hcalls, hdone⟩)
    · exact ⟨calls, c, [], .inl ⟨rfl, rfl, rfl⟩, List.not_mem_nil⟩
    · exact ⟨before, c', _, .inr ⟨between, rfl, hcalls⟩, by simpa using hdone⟩

/-- A handle that finishes is no longer out. -/
theorem out_complete : Out (calls ++ [.complete handle]) handle' node' ↔
    handle' ≠ handle ∧ Out calls handle' node' := by
  simp only [Out, snoc_eq_iff]
  constructor
  · rintro ⟨before, c', after, ⟨heq, -⟩ | ⟨between, rfl, hcalls⟩, hdone⟩
    · cases heq
    · simp only [List.mem_append, List.mem_singleton, Call.complete.injEq, not_or] at hdone
      exact ⟨hdone.2, before, c', between, hcalls, hdone.1⟩
  · rintro ⟨hne, before, c', between, hcalls, hdone⟩
    exact ⟨before, c', _, .inr ⟨between, rfl, hcalls⟩, by simpa using ⟨hdone, hne⟩⟩

/-- The first handle of a node that has none out opens it. -/
theorem openedAs_register (none : ∀ other, ¬Out calls other node) (handle : Handle) (c : NodeClass) :
    OpenedAs (calls ++ [.register handle node c]) node c := by
  refine ⟨calls, handle, [], rfl, none, fun since hsince => ⟨handle, ?_⟩⟩
  rw [List.prefix_nil.1 hsince]
  exact out_register.2 (.inl ⟨rfl, rfl⟩)

/-- The class stays as long as the node has a handle out. -/
theorem OpenedAs.snoc (h : OpenedAs calls node c) (call : Call)
    (out : ∃ other, Out (calls ++ [call]) other node) : OpenedAs (calls ++ [call]) node c := by
  obtain ⟨before, handle, after, rfl, hnone, hsince⟩ := h
  refine ⟨before, handle, after ++ [call], List.append_assoc _ _ _, hnone, fun since hprefix => ?_⟩
  rcases List.prefix_concat_iff.1 hprefix with rfl | hprefix
  · simpa using out
  · exact hsince since hprefix

/-- **The class of a node with handles out is determined by the calls.** -/
theorem OpenedAs.unique (h : OpenedAs calls node c) (h' : OpenedAs calls node c') : c = c' := by
  -- of two openings the later one would find a handle of the earlier one still out
  have hearlier : ∀ {before before' : List Call} {handle handle' : Handle} {c c' : NodeClass}
      {after after' : List Call}, before ++ Call.register handle node c :: after =
        before' ++ Call.register handle' node c' :: after' → (∀ other, ¬Out before' other node) →
      (∀ since, since <+: after →
        ∃ other, Out (before ++ .register handle node c :: since) other node) →
      before'.length ≤ before.length := by
    intro before before' handle handle' c c' after after' heq hnone hsince
    rcases List.append_eq_append_iff.1 heq with ⟨between, hbefore', hafter⟩ | ⟨between, rfl, -⟩
    · rcases List.cons_eq_append_iff.1 hafter with ⟨rfl, -⟩ | ⟨since, rfl, rfl⟩
      · simp [hbefore']
      · obtain ⟨other, hout⟩ := hsince since (List.prefix_append _ _)
        exact absurd (hbefore' ▸ hout) (hnone other)
    · simp
  obtain ⟨before, handle, after, rfl, hnone, hsince⟩ := h
  obtain ⟨before', handle', after', heq, hnone', hsince'⟩ := h'
  have hlength : before.length = before'.length :=
    Nat.le_antisymm (hearlier heq.symm hnone hsince') (hearlier heq hnone' hsince)
  cases (List.cons.inj (List.append_inj heq hlength).2).1
  rfl

/-! ### The tables -/

/-- The number of handles that a table has for a node. -/
def handlesOf (g : Gatherings) (node : NodeId) : Nat := g.handles.count fun _ owner => owner = node

/-- The tables say what the calls say. -/
structure Follows (g : Gatherings) (calls : List Call) : Prop where
  out : ∀ handle node, g.handles.find? handle.index = some node ↔ Out calls handle node
  /-- A node with an entry has as many handles out as the entry says, and the class of the first. -/
  counted : ∀ node c n, g.outstanding.find? node = some (c, n) →
    n = g.handlesOf node ∧ 0 < n ∧ OpenedAs calls node c
  /-- A node without one has none. -/
  done : ∀ node, g.outstanding.find? node = none → g.handlesOf node = 0

variable {g g' : Gatherings}

theorem handlesOf_pos_iff : 0 < g.handlesOf node ↔
    ∃ handle : Handle, g.handles.find? handle.index = some node := by
  simp only [handlesOf, SortedMap.count_pos_iff, decide_eq_true_eq]
  constructor
  · rintro ⟨k, _, hfind, rfl⟩
    exact ⟨⟨k⟩, hfind⟩
  · rintro ⟨handle, hfind⟩
    exact ⟨handle.index, node, hfind, rfl⟩

theorem Follows.initial : Follows {} [] where
  out := fun handle node => iff_of_false (fun h => by cases h) not_out_nil
  counted := fun node c n h => by cases h
  done := fun node _ => rfl

/-- A node has handles in the table exactly if it has handles out. -/
theorem Follows.handlesOf_pos_iff (h : g.Follows calls) :
    0 < g.handlesOf node ↔ ∃ handle, Out calls handle node :=
  Gatherings.handlesOf_pos_iff.trans (exists_congr fun handle => h.out handle node)

/-- A call concerns one node: the other entries and counts stay. -/
theorem Follows.step (h : g.Follows calls) (node : NodeId) {call : Call}
    (out : ∀ handle node, g'.handles.find? handle.index = some node ↔ Out (calls ++ [call]) handle node)
    (handlesOf_eq : ∀ other ≠ node, g'.handlesOf other = g.handlesOf other)
    (outstanding_eq : ∀ other ≠ node, g'.outstanding.find? other = g.outstanding.find? other)
    (counted : ∀ c n, g'.outstanding.find? node = some (c, n) →
      n = g'.handlesOf node ∧ 0 < n ∧ OpenedAs (calls ++ [call]) node c)
    (done : g'.outstanding.find? node = none → g'.handlesOf node = 0) :
    g'.Follows (calls ++ [call]) where
  out := out
  counted := fun other c n hfind => by
    by_cases heq : other = node
    · subst heq
      exact counted c n hfind
    · rw [outstanding_eq other heq] at hfind
      obtain ⟨hn, hpos, hopened⟩ := h.counted other c n hfind
      rw [← handlesOf_eq other heq] at hn
      obtain ⟨handle, hhandle⟩ := Gatherings.handlesOf_pos_iff.1 (hn ▸ hpos)
      exact ⟨hn, hpos, hopened.snoc call ⟨handle, (out handle other).1 hhandle⟩⟩
  done := fun other hfind => by
    by_cases heq : other = node
    · subst heq
      exact done hfind
    · rw [handlesOf_eq other heq]
      exact h.done other ((outstanding_eq other heq).symm.trans hfind)

/-- **A handle goes out** that was not out. -/
theorem Follows.register (h : g.Follows calls) (new : ∀ node, ¬Out calls handle node) (node : NodeId)
    (c : NodeClass) : ∃ g', g.register handle node c = .ok g' ∧
      g'.Follows (calls ++ [.register handle node c]) := by
  have hfree : g.handles.find? handle.index = none :=
    Option.eq_none_iff_forall_ne_some.2 fun node' hout => new node' ((h.out handle node').1 hout)
  have hhandles (node' : NodeId) : (g.handles.insert handle.index node).count (fun _ owner =>
      owner = node') = g.handlesOf node' + if node = node' then 1 else 0 := by
    simp only [SortedMap.count_insert_of_none hfree, handlesOf, decide_eq_true_eq]
  have hout (handle' : Handle) (node' : NodeId) :
      (g.handles.insert handle.index node).find? handle'.index = some node' ↔
        Out (calls ++ [.register handle node c]) handle' node' := by
    rw [out_register, SortedMap.find?_insert, ← h.out, ← Handle.index_inj]
    split
    next heq => simp [heq, hfree, eq_comm]
    next hne => simp [hne]
  -- the entry of the node is new, or counts one handle more
  obtain ⟨c₀, n, hentry, hn, hopened⟩ : ∃ c₀ n, (g.outstanding.find? node).getD (c, 0) = (c₀, n) ∧
      n = g.handlesOf node ∧ OpenedAs (calls ++ [.register handle node c]) node c₀ := by
    cases hfind : g.outstanding.find? node with
    | none =>
        have hzero := h.done node hfind
        refine ⟨c, 0, rfl, hzero.symm, openedAs_register (fun other hother => ?_) handle c⟩
        exact Nat.ne_of_gt (h.handlesOf_pos_iff.2 ⟨other, hother⟩) hzero
    | some entry =>
        obtain ⟨hn, -, hopened⟩ := h.counted node entry.1 entry.2 hfind
        exact ⟨entry.1, entry.2, rfl, hn, hopened.snoc _ ⟨handle, out_register.2 (.inl ⟨rfl, rfl⟩)⟩⟩
  have hregister : g.register handle node c = .ok {
      handles := g.handles.insert handle.index node
      outstanding := g.outstanding.insert node (c₀, n + 1) } := by
    rw [Gatherings.register, if_neg (by simp [SortedMap.contains, hfree]), hentry]
  refine ⟨_, hregister, h.step node hout (fun other hne => ?_) (fun other hne => ?_)
    (fun c' n' hfind => ?_) fun hfind => ?_⟩
  · exact (hhandles other).trans (by rw [if_neg (Ne.symm hne), Nat.add_zero])
  · exact SortedMap.find?_insert_of_ne _ _ hne
  · rw [SortedMap.find?_insert_self] at hfind
    cases hfind
    exact ⟨by rw [handlesOf, hhandles, if_pos rfl, hn], Nat.succ_pos n, hopened⟩
  · rw [SortedMap.find?_insert_self] at hfind
    cases hfind

/-- **A handle finishes** that was out.  If its node has others out nothing is reported, and otherwise the
node, with the class with which it was opened. -/
theorem Follows.complete (h : g.Follows calls) (out : Out calls handle node) (j : Array Entry) :
    Ends (Gatherings.complete handle) ⟨g, j⟩
      (fun answer t => t.state.Follows (calls ++ [.complete handle]) ∧
        ((answer = none ∧ ∃ other, Out calls other node ∧ other ≠ handle) ∨
          ∃ c, answer = some (node, c) ∧ OpenedAs calls node c ∧
            ∀ other, Out calls other node → other = handle))
      fun _ _ => False := by
  have hfind := (h.out handle node).2 out
  have hhandles (node' : NodeId) : (g.handles.erase handle.index).count (fun _ owner =>
      owner = node') + (if node = node' then 1 else 0) = g.handlesOf node' := by
    simp only [handlesOf, ← SortedMap.count_erase_add hfind, decide_eq_true_eq]
  have hout (other : Handle) (node' : NodeId) :
      (g.handles.erase handle.index).find? other.index = some node' ↔
        Out (calls ++ [.complete handle]) other node' := by
    rw [out_complete, SortedMap.find?_erase, ← h.out, ne_eq, ← Handle.index_inj]
    split
    next heq => simp [heq]
    next hne => simp [hne]
  have hothers (outstanding : SortedMap NodeId (NodeClass × Nat)) : ∀ other ≠ node,
      handlesOf ⟨g.handles.erase handle.index, outstanding⟩ other = g.handlesOf other :=
    fun other hne => by rw [← hhandles other, if_neg (Ne.symm hne), Nat.add_zero, handlesOf]
  have hleft (outstanding : SortedMap NodeId (NodeClass × Nat)) :
      handlesOf ⟨g.handles.erase handle.index, outstanding⟩ node = g.handlesOf node - 1 := by
    rw [← hhandles node, if_pos rfl, Nat.add_sub_cancel, handlesOf]
  -- a handle of the node in the table that is left is another one that was out
  have hmore (outstanding : SortedMap NodeId (NodeClass × Nat)) :
      0 < handlesOf ⟨g.handles.erase handle.index, outstanding⟩ node ↔
        ∃ other, Out (calls ++ [.complete handle]) other node :=
    Gatherings.handlesOf_pos_iff.trans (exists_congr fun other => hout other node)
  simp only [Gatherings.complete, ends_bind, ends_get]
  rw [hfind]
  dsimp only
  cases hentry : g.outstanding.find? node with
  | none => exact absurd (h.done node hentry) (Nat.ne_of_gt (h.handlesOf_pos_iff.2 ⟨handle, out⟩))
  | some entry =>
      obtain ⟨c, n⟩ := entry
      obtain ⟨hn, hpos, hopened⟩ := h.counted node c n hentry
      rw [hn] at hpos
      simp only [ends_bind, hn, Counter.sub_of_le hpos, ends_lift_ok, ends_ite, ends_put, ends_pure,
        ends_note]
      refine ⟨fun hlast => ⟨?_, .inr ⟨c, rfl, hopened, fun other hother => ?_⟩⟩,
        fun hrest => ⟨?_, .inl ⟨trivial, ?_⟩⟩⟩
      · refine h.step node hout (hothers _) (fun other hne => ?_) (fun c' n' hfind => ?_)
          fun _ => (hleft _).trans hlast
        · exact SortedMap.find?_erase_of_ne _ hne
        · rw [SortedMap.find?_erase_self] at hfind
          cases hfind
      · by_contra hne
        have hpos' := (hmore ∅).2 ⟨other, out_complete.2 ⟨hne, hother⟩⟩
        exact Nat.ne_of_gt hpos' ((hleft ∅).trans hlast)
      · have hpos' := Nat.pos_of_ne_zero hrest
        refine h.step node hout (hothers _) (fun other hne => ?_) (fun c' n' hfind => ?_)
          fun hfind => ?_
        · exact SortedMap.find?_insert_of_ne _ _ hne
        · rw [SortedMap.find?_insert_self] at hfind
          cases hfind
          exact ⟨(hleft _).symm, hpos', hopened.snoc _ ((hmore ∅).1 (by rwa [hleft]))⟩
        · rw [SortedMap.find?_insert_self] at hfind
          cases hfind
      · obtain ⟨other, hother⟩ := (hmore ∅).1 (by rw [hleft]; exact Nat.pos_of_ne_zero hrest)
        exact ⟨other, (out_complete.1 hother).2, (out_complete.1 hother).1⟩

/-- **All calls return, and the tables say what they came to.** -/
theorem Lawful.ends_calls (h : Lawful calls) (j : Array Entry) :
    Ends (calls.forM Call.act) ⟨{}, j⟩ (fun _ t => t.state.Follows calls) fun _ _ => False := by
  induction h with
  | nil => exact .initial
  | register h handle new node c ih =>
      rw [ends_forM_snoc]
      refine ih.imp ?_ fun _ _ h => h
      rintro _ t follows
      obtain ⟨g', hregister, hfollows⟩ := follows.register new node c
      simp only [Call.act, ends_bind, ends_get, hregister, ends_lift_ok, ends_put]
      exact hfollows
  | complete h out ih =>
      rw [ends_forM_snoc]
      refine ih.imp ?_ fun _ _ h => h
      rintro _ t follows
      simp only [Call.act, ends_bind, ends_pure]
      exact (follows.complete out t.journal).imp (fun _ _ h => h.1) fun _ _ h => h

/-! ### Handles and nodes -/

/-- The number of handles in the table is that of the handles out. -/
theorem Follows.handlesOf_eq (h : g.Follows calls) (node : NodeId) :
    g.handlesOf node = {handle | Out calls handle node}.ncard := by
  have hset : {k | ∃ owner, g.handles.find? k = some owner ∧ decide (owner = node) = true} =
      Handle.index '' {handle | Out calls handle node} := by
    ext k
    simp only [decide_eq_true_eq, exists_eq_right, Set.mem_ofPred_eq, Set.mem_image, ← h.out]
    exact ⟨fun hk => ⟨⟨k⟩, hk, rfl⟩, fun ⟨handle, hhandle, hk⟩ => hk ▸ hhandle⟩
  rw [handlesOf, ← SortedMap.ncard_setOf, hset]
  exact Set.ncard_image_of_injective _ fun _ _ => Handle.index_inj.1

/-- A node has an entry exactly if it has handles out. -/
theorem Follows.outstanding_eq_none_iff (h : g.Follows calls) (node : NodeId) :
    g.outstanding.find? node = none ↔ ∀ handle, ¬Out calls handle node := by
  rw [← not_exists, ← h.handlesOf_pos_iff, Nat.pos_iff_ne_zero, not_not]
  refine ⟨h.done node, fun hzero => Option.eq_none_iff_forall_ne_some.2 fun entry hentry => ?_⟩
  obtain ⟨hn, hpos, -⟩ := h.counted node entry.1 entry.2 hentry
  exact Nat.ne_of_gt hpos (hn.trans hzero)

/-- The entries are those of the nodes with handles out. -/
theorem Follows.pendingNodes_eq (h : g.Follows calls) :
    g.pendingNodes = {node | ∃ handle, Out calls handle node}.ncard := by
  have hset : {node | ∃ entry, g.outstanding.find? node = some entry ∧ true = true} =
      {node | ∃ handle, Out calls handle node} := by
    ext node
    have hnone := not_congr (h.outstanding_eq_none_iff node)
    rw [not_forall_not, ← ne_eq, Option.ne_none_iff_exists'] at hnone
    simpa using hnone
  rw [← hset, SortedMap.ncard_setOf, SortedMap.count, List.countP_true]
  rfl

/-- There are no handles exactly if there are no nodes with handles. -/
theorem Follows.isEmpty_iff (h : g.Follows calls) : g.isEmpty = true ↔ g.pendingNodes = 0 := by
  have hzero : g.pendingNodes = 0 ↔ g.outstanding.isEmpty = true :=
    List.length_eq_zero_iff.trans List.isEmpty_iff.symm
  rw [hzero, SortedMap.isEmpty_iff, isEmpty, SortedMap.isEmpty_iff]
  simp only [h.outstanding_eq_none_iff, Option.eq_none_iff_forall_ne_some]
  constructor
  · exact fun hfree node handle hout => hfree handle.index node ((h.out handle node).2 hout)
  · exact fun hnone k node hfind => hnone node ⟨k⟩ ((h.out ⟨k⟩ node).1 hfind)

/-- **A node is reported with the last of its handles.**  Let handles go out only if they are not out, and
finish only if they are.  Then all calls return.  The tables have the handles that are out, each with its
node.  A node with handles out has an entry, which says how many there are and with which class the first
of them came, and other nodes have none; so there are as many entries as nodes with handles out.  If then a
handle finishes that is out, its node is reported with that class if it has no other handle out, and
nothing is reported if it has. -/
theorem answered_with_last (lawful : Lawful calls) (j : Array Entry) :
    ∃ t, calls.forM Call.act ⟨{}, j⟩ = .ok () t ∧
      (∀ handle node, t.state.handles.find? handle.index = some node ↔ Out calls handle node) ∧
      (∀ node c n, t.state.outstanding.find? node = some (c, n) →
        n = {handle | Out calls handle node}.ncard ∧ 0 < n ∧ OpenedAs calls node c) ∧
      (∀ node, t.state.outstanding.find? node = none ↔ ∀ handle, ¬Out calls handle node) ∧
      t.state.pendingNodes = {node | ∃ handle, Out calls handle node}.ncard ∧
      (t.state.isEmpty = true ↔ t.state.pendingNodes = 0) ∧
      ∀ handle node, Out calls handle node → ∃ answer t',
        Gatherings.complete handle t = .ok answer t' ∧
        (∀ node' c, answer = some (node', c) ↔ node' = node ∧ OpenedAs calls node c ∧
          ∀ other, Out calls other node → other = handle) ∧
        (answer = none ↔ ∃ other, Out calls other node ∧ other ≠ handle) := by
  obtain ⟨_, t, hrun, follows⟩ := (lawful.ends_calls j).exists_ok
  refine ⟨t, hrun, follows.out, fun node c n hentry => ?_, follows.outstanding_eq_none_iff,
    follows.pendingNodes_eq, follows.isEmpty_iff, fun handle node out => ?_⟩
  · rw [← follows.handlesOf_eq]
    exact follows.counted node c n hentry
  · obtain ⟨answer, t', hcomplete, -, hanswer⟩ := (follows.complete out t.journal).exists_ok
    refine ⟨answer, t', hcomplete, fun node' c => ?_, ?_⟩
    · rcases hanswer with ⟨rfl, other, hother, hne⟩ | ⟨c', rfl, hopened, hlast⟩
      · exact iff_of_false (fun h => by cases h) fun h => hne (h.2.2 other hother)
      · constructor
        · rintro ⟨⟩
          exact ⟨rfl, hopened, hlast⟩
        · rintro ⟨rfl, hopened', -⟩
          rw [hopened.unique hopened']
    · rcases hanswer with ⟨rfl, hother⟩ | ⟨c', rfl, -, hlast⟩
      · exact iff_of_true rfl hother
      · exact iff_of_false (fun h => by cases h) fun ⟨other, hother, hne⟩ =>
          hne (hlast other hother)

/-- Handles of two nodes.  The second handle of node 9 comes with another class than the first, which then
finishes and goes out again for node 4. -/
def passedOn : List Call :=
  [.register ⟨1⟩ 9 .collective, .register ⟨2⟩ 4 .send, .register ⟨3⟩ 9 .receive, .complete ⟨1⟩,
    .register ⟨1⟩ 4 .collective]

/-- Node 9 is reported with the class of the handle that it no longer has; node 4 still has another one. -/
theorem answered_with_last_passedOn : Lawful passedOn ∧
    ∃ t, passedOn.forM Call.act ⟨{}, #[]⟩ = .ok () t ∧ t.state.pendingNodes = 2 ∧
      (∃ t', Gatherings.complete ⟨3⟩ t = .ok (some (9, .collective)) t') ∧
      ∃ t', Gatherings.complete ⟨1⟩ t = .ok none t' := by
  have hfirst := Lawful.nil.register ⟨1⟩ (fun _ => not_out_nil) 9 .collective
  have hsecond := hfirst.register ⟨2⟩ (by simp only [out_register, not_out_nil]; simp) 4 .send
  have hthird := hsecond.register ⟨3⟩ (by simp only [out_register, not_out_nil]; simp) 9 .receive
  have hfinished := hthird.complete (show Out _ ⟨1⟩ 9 by simp only [out_register]; simp)
  have lawful : Lawful passedOn :=
    hfinished.register ⟨1⟩ (by simp only [out_complete]; simp) 4 .collective
  have hout (handle : Handle) (node : NodeId) : Out passedOn handle node ↔
      (handle = ⟨1⟩ ∧ node = 4) ∨ (handle = ⟨3⟩ ∧ node = 9) ∨ (handle = ⟨2⟩ ∧ node = 4) := by
    show Out ((((([] ++ [_]) ++ [_]) ++ [_]) ++ [_]) ++ [_]) handle node ↔ _
    simp only [out_register, out_complete, not_out_nil]
    grind
  have hopened : OpenedAs passedOn 9 .collective := by
    have hnine : OpenedAs ([] ++ [.register ⟨1⟩ 9 .collective]) 9 .collective :=
      openedAs_register (fun _ => not_out_nil) ⟨1⟩ .collective
    have hlate := (hnine.snoc (.register ⟨2⟩ 4 .send)
      ⟨⟨1⟩, by simp only [out_register]; simp⟩).snoc (.register ⟨3⟩ 9 .receive)
      ⟨⟨1⟩, by simp only [out_register]; simp⟩
    exact (hlate.snoc (.complete ⟨1⟩)
      ⟨⟨3⟩, by simp only [out_register, out_complete]; simp⟩).snoc _ ⟨⟨3⟩, (hout _ _).2 (by simp)⟩
  obtain ⟨t, hrun, -, -, -, hpending, -, hcomplete⟩ := answered_with_last lawful #[]
  obtain ⟨last, t₁, hlast, hsome, -⟩ := hcomplete ⟨3⟩ 9 ((hout _ _).2 (by simp))
  obtain ⟨early, t₂, hearly, -, hnone⟩ := hcomplete ⟨1⟩ 4 ((hout _ _).2 (by simp))
  refine ⟨lawful, t, hrun, ?_, ⟨t₁, ?_⟩, t₂, ?_⟩
  · have hnodes : {node | ∃ handle, Out passedOn handle node} = {4, 9} := by
      ext node
      simp only [hout, Set.mem_ofPred_eq, Set.mem_insert_iff, Set.mem_singleton_iff]
      grind
    rw [hpending, hnodes]
    exact Set.ncard_pair (by decide)
  · have hlastOne : ∀ other, Out passedOn other 9 → other = ⟨3⟩ := fun other hother => by
      simpa using (hout other 9).1 hother
    rw [hlast, (hsome 9 .collective).2 ⟨rfl, hopened, hlastOne⟩]
  · rw [hearly, hnone.2 ⟨⟨2⟩, (hout _ _).2 (by simp), by decide⟩]

end Gatherings

end TraceReplay
