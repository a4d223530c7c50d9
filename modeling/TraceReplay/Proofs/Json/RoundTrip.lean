/-
**Documents are read as they are written.**

A document is written as tokens with a comma between any two items and any two members, so that no number
meets another one and the scanner gives the tokens back.  The reader then works on a stack of what is still
open: over the tokens of a document it does to the stack what the document itself, as a value that has
ended, does to it.  Both are induction over the document; its items and members are lists, and what is known
of each of them carries over to the tokens of the list.

Main definitions:

* `Json.Progress.ReadsAs` — tokens that do to every stack what a document does.

Main results:

* `Json.induction` — induction over documents, with the claim for all items and all members;
* `Json.readBack_tokens` — the tokens of a document are scanned as they are written;
* `Json.ofTokens?_tokens` — the reader builds the document from them;
* `Json.parse?_render` — **every document is read as it is written**.
-/

import TraceReplay.Json.Printer
import TraceReplay.Json.Reader
import TraceReplay.Proofs.Json.Token

set_option relaxedAutoImplicit false
set_option autoImplicit false

namespace TraceReplay

namespace Json

/-- Induction over documents, with the claim for every item and for every member. -/
@[elab_as_elim, induction_eliminator]
theorem induction {motive : Json → Prop} (null : motive .null) (bool : ∀ b, motive (.bool b))
    (number : ∀ n, motive (.number n)) (string : ∀ s, motive (.string s))
    (array : ∀ items, (∀ j ∈ items, motive j) → motive (.array items))
    (object : ∀ members, (∀ m ∈ members, motive m.2) → motive (.object members)) :
    ∀ j, motive j
  | .null => null
  | .bool b => bool b
  | .number n => number n
  | .string s => string s
  | .array items => array items fun j _ => induction null bool number string array object j
  | .object members => object members fun m _ => induction null bool number string array object m.2
termination_by j => sizeOf j
decreasing_by
  · have := List.sizeOf_lt_of_mem ‹_›
    simp
    omega
  · have := List.sizeOf_lt_of_mem ‹_›
    rcases m with ⟨name, j⟩
    simp at *
    omega

variable {j : Json} {items : List Json} {members : List (Option String × Json)}

/-! ### From characters to tokens -/

theorem readBack_itemTokens (h : ∀ j ∈ items, ReadBack j.tokens) : ReadBack (itemTokens items) := by
  induction items with
  | nil => exact .nil
  | cons j js ih =>
      obtain ⟨hj, hjs⟩ := List.forall_mem_cons.1 h
      cases js with
      | nil => exact hj
      | cons k ks => exact hj.append_cons rfl (ih hjs)

theorem readBack_memberTokens (h : ∀ m ∈ members, ReadBack m.2.tokens) :
    ReadBack (memberTokens members) := by
  induction members with
  | nil => exact .nil
  | cons m ms ih =>
      obtain ⟨hm, hms⟩ := List.forall_mem_cons.1 h
      cases ms with
      | nil => exact .cons rfl (.cons rfl hm)
      | cons l ls => exact .cons rfl (.cons rfl (hm.append_cons rfl (ih hms)))

/-- **The tokens of a document are scanned as they are written.** -/
theorem readBack_tokens (j : Json) : ReadBack j.tokens := by
  induction j with
  | array items ih => exact .cons rfl ((readBack_itemTokens ih).append_cons rfl .nil)
  | object members ih => exact .cons rfl ((readBack_memberTokens ih).append_cons rfl .nil)
  | _ => exact .singleton _

theorem tokens?_render (j : Json) : tokens? j.render.toList = some j.tokens := by
  have hread := j.readBack_tokens [] endsNumber_nil
  rw [List.append_nil] at hread
  rw [render, String.toList_ofList, hread, tokens?, Option.map_some, List.append_nil]

/-! ### From tokens to the document -/

namespace Progress

variable {stack : List Frame}

theorem foldlM_singleton (p : Progress) (t : Token) : [t].foldlM step? p = step? p t := by
  rw [List.foldlM_cons]
  exact bind_pure _

/-- Tokens that do to every stack, where a value may start, what a document does. -/
def ReadsAs (ts : List Token) (j : Json) : Prop :=
  ∀ stack, ts.foldlM step? (inside .value stack) = place? j stack

/-- A first item is read as any other value, for no document starts with the end of an array. -/
theorem foldlM_tokens_itemOrEnd (j : Json) (stack : List Frame) :
    j.tokens.foldlM step? (inside .itemOrEnd stack) = j.tokens.foldlM step? (inside .value stack) := by
  cases stack with
  | nil => cases j <;> rfl
  | cons frame stack => cases frame <;> cases j <;> rfl

/-- Items with commas between them end up in the array that is open. -/
theorem foldlM_itemTokens (j : Json) (js : List Json) (h : ∀ k ∈ j :: js, ReadsAs k.tokens k)
    (done : List Json) : (itemTokens (j :: js)).foldlM step? (inside .value (.array done :: stack))
      = some (inside .commaOrEnd (.array ((j :: js).reverse ++ done) :: stack)) := by
  induction js generalizing j done with
  | nil => exact h j (List.mem_singleton_self j) _
  | cons k ks ih =>
      obtain ⟨hj, hks⟩ := List.forall_mem_cons.1 h
      calc (itemTokens (j :: k :: ks)).foldlM step? (inside .value (.array done :: stack))
        _ = (place? j (.array done :: stack)).bind
              ((Token.comma :: itemTokens (k :: ks)).foldlM step?) := by
            rw [itemTokens, List.foldlM_append, hj]
            · rfl
            · exact List.cons_ne_nil k ks
        _ = (itemTokens (k :: ks)).foldlM step? (inside .value (.array (j :: done) :: stack)) := rfl
        _ = _ := by
            rw [ih k hks (j :: done)]
            simp

theorem foldlM_itemTokens_itemOrEnd (j : Json) (js : List Json) :
    (itemTokens (j :: js)).foldlM step? (inside .itemOrEnd stack)
      = (itemTokens (j :: js)).foldlM step? (inside .value stack) := by
  cases js with
  | nil => exact foldlM_tokens_itemOrEnd j stack
  | cons k ks =>
      change (j.tokens ++ Token.comma :: itemTokens (k :: ks)).foldlM step? _
        = (j.tokens ++ Token.comma :: itemTokens (k :: ks)).foldlM step? _
      rw [List.foldlM_append, List.foldlM_append, foldlM_tokens_itemOrEnd]

/-- Members with commas between them end up in the object that is open. -/
theorem foldlM_memberTokens (m : Option String × Json) (ms : List (Option String × Json))
    (h : ∀ l ∈ m :: ms, ReadsAs l.2.tokens l.2) (done : List (Option String × Json)) :
    (memberTokens (m :: ms)).foldlM step? (inside .name (.object done :: stack))
      = some (inside .commaOrEnd (.object ((m :: ms).reverse ++ done) :: stack)) := by
  induction ms generalizing m done with
  | nil => exact h m (List.mem_singleton_self m) _
  | cons l ls ih =>
      obtain ⟨hm, hls⟩ := List.forall_mem_cons.1 h
      calc (memberTokens (m :: l :: ls)).foldlM step? (inside .name (.object done :: stack))
        _ = (m.2.tokens ++ Token.comma :: memberTokens (l :: ls)).foldlM step?
              (inside .value (.member done m.1 :: stack)) := rfl
        _ = (place? m.2 (.member done m.1 :: stack)).bind
              ((Token.comma :: memberTokens (l :: ls)).foldlM step?) := by
            rw [List.foldlM_append, hm]
            rfl
        _ = (memberTokens (l :: ls)).foldlM step? (inside .name (.object (m :: done) :: stack)) := rfl
        _ = _ := by
            rw [ih l hls (m :: done)]
            simp

theorem foldlM_memberTokens_nameOrEnd (m : Option String × Json) (ms : List (Option String × Json))
    (done : List (Option String × Json)) :
    (memberTokens (m :: ms)).foldlM step? (inside .nameOrEnd (.object done :: stack))
      = (memberTokens (m :: ms)).foldlM step? (inside .name (.object done :: stack)) := by
  cases ms <;> rfl

/-- **Over the tokens of a document the reader does what the document does.** -/
theorem readsAs_tokens (j : Json) : ReadsAs j.tokens j := by
  intro stack
  induction j generalizing stack with
  | array items ih =>
      cases items with
      | nil => exact foldlM_singleton (inside .itemOrEnd (.array [] :: stack)) .closeArray
      | cons j js =>
          calc (Json.array (j :: js)).tokens.foldlM step? (inside .value stack)
            _ = (itemTokens (j :: js) ++ [Token.closeArray]).foldlM step?
                  (inside .itemOrEnd (.array [] :: stack)) := rfl
            _ = [Token.closeArray].foldlM step?
                  (inside .commaOrEnd (.array (j :: js).reverse :: stack)) := by
                rw [List.foldlM_append, foldlM_itemTokens_itemOrEnd, foldlM_itemTokens j js ih,
                  List.append_nil]
                rfl
            _ = place? (.array (j :: js).reverse.reverse) stack := foldlM_singleton _ _
            _ = _ := by rw [List.reverse_reverse]
  | object members ih =>
      cases members with
      | nil => exact foldlM_singleton (inside .nameOrEnd (.object [] :: stack)) .closeObject
      | cons m ms =>
          calc (Json.object (m :: ms)).tokens.foldlM step? (inside .value stack)
            _ = (memberTokens (m :: ms) ++ [Token.closeObject]).foldlM step?
                  (inside .nameOrEnd (.object [] :: stack)) := rfl
            _ = [Token.closeObject].foldlM step?
                  (inside .commaOrEnd (.object (m :: ms).reverse :: stack)) := by
                rw [List.foldlM_append, foldlM_memberTokens_nameOrEnd, foldlM_memberTokens m ms ih,
                  List.append_nil]
                rfl
            _ = place? (.object (m :: ms).reverse.reverse) stack := foldlM_singleton _ _
            _ = _ := by rw [List.reverse_reverse]
  | _ => exact foldlM_singleton (inside .value stack) _

end Progress

theorem ofTokens?_tokens (j : Json) : ofTokens? j.tokens = some j := by
  rw [ofTokens?, Progress.readsAs_tokens j []]
  rfl

/-- **Every document is read as it is written.** -/
theorem parse?_render (j : Json) : parse? j.render = some j := by
  rw [parse?, tokens?_render, Option.bind_some, ofTokens?_tokens]

/-- Controls, quotes and backslashes are escaped, and nothing else is. -/
example : (record [("a\n\x01é", .array [.nat 10, .text "\"/", .null])]).render
    = "\x7b\"a\\n\\u0001é\":[10,\"\\\"/\",null]\x7d" := by cbv

end Json

end TraceReplay
