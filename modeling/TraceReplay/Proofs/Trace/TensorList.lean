/-
**The grammar of tensor lists.**

A list of tensors is a list of texts, names and sizes in alternation.  A size is a numeral between white
space, and its number has to be a counter.  Here the lists that are read are described by that grammar, and
those that are refused by what is wrong with them: their length, or else the first pair from the left of
which the size is no such numeral.  What is written down tensor by tensor is read back.

Main definitions:

* `Tensor.Spells` — a text is a numeral of a counter, between white space;
* `Tensor.Lists` — a list of texts lists tensors, a name and a size for each;
* `Tensor.FirstBad` — the first pair of a list of which the size spells nothing.

Main results:

* `exists_trimBlank`, `trimBlank_append` — trimming takes the white space from both ends, and no more;
* `Tensor.readSize_eq_ok_iff` — the sizes that are read are those that are spelled;
* `Tensor.parsePairs_eq_ok_iff`, `Tensor.parsePairs_eq_error_iff` — the pairs that are read, and the first
  one that is not;
* `Tensor.lists_exactly` — **lists of tensors are read exactly**, and read back.
-/

import Mathlib.Data.List.TakeWhile
import TraceReplay.Proofs.Text.Decimal
import TraceReplay.Trace.TensorList

set_option relaxedAutoImplicit false
set_option autoImplicit false

namespace TraceReplay

/-! ### White space -/

/-- Trimming takes white space from both ends. -/
theorem exists_trimBlank (cs : List Char) : ∃ left right, cs = left ++ trimBlank cs ++ right ∧
    (∀ c ∈ left, isBlank c = true) ∧ ∀ c ∈ right, isBlank c = true := by
  have hend := congrArg List.reverse
    (List.takeWhile_append_dropWhile (p := isBlank) (l := (cs.dropWhile isBlank).reverse))
  rw [List.reverse_append, List.reverse_reverse] at hend
  refine ⟨cs.takeWhile isBlank, ((cs.dropWhile isBlank).reverse.takeWhile isBlank).reverse, ?_,
    fun c hc => List.mem_takeWhile_imp hc, fun c hc => List.mem_takeWhile_imp (List.mem_reverse.1 hc)⟩
  rw [List.append_assoc, trimBlank, hend, List.takeWhile_append_dropWhile]

/-- White space in front of other characters is dropped. -/
theorem dropWhile_blank_append {blanks cs rest : List Char} (blank : ∀ c ∈ blanks, isBlank c = true)
    (visible : ∀ c ∈ cs, isBlank c = false) (ne : cs ≠ []) :
    (blanks ++ (cs ++ rest)).dropWhile isBlank = cs ++ rest := by
  obtain ⟨c, cs, rfl⟩ := List.exists_cons_of_ne_nil ne
  rw [List.dropWhile_append_of_pos blank, List.cons_append, List.dropWhile_cons_of_neg]
  rw [visible c List.mem_cons_self]
  exact Bool.false_ne_true

/-- Trimming leaves characters that are no white space. -/
theorem trimBlank_append {left cs right : List Char} (hleft : ∀ c ∈ left, isBlank c = true)
    (hright : ∀ c ∈ right, isBlank c = true) (visible : ∀ c ∈ cs, isBlank c = false) (ne : cs ≠ []) :
    trimBlank (left ++ cs ++ right) = cs := by
  have hback : (right.reverse ++ (cs.reverse ++ [])).dropWhile isBlank = cs.reverse ++ [] :=
    dropWhile_blank_append (fun c hc => hright c (List.mem_reverse.1 hc))
      (fun c hc => visible c (List.mem_reverse.1 hc)) (by simpa using ne)
  rw [List.append_nil] at hback
  rw [trimBlank, List.append_assoc, dropWhile_blank_append hleft visible ne, List.reverse_append, hback,
    List.reverse_reverse]

theorem Decimal.Numeral.ne_nil {cs : List Char} {n : Nat} (h : Numeral cs n) : cs ≠ [] := by
  obtain ⟨plus, ds, -, hne, rfl, -⟩ := h
  exact List.append_ne_nil_of_right_ne_nil _ fun h => hne (List.map_eq_nil_iff.1 h)

/-- There is no white space in a numeral. -/
theorem Decimal.Numeral.visible {cs : List Char} {n : Nat} (h : Numeral cs n) :
    ∀ c ∈ cs, isBlank c = false := by
  have hdigit : ∀ d : Digit, isBlank d.char = false := by decide
  obtain ⟨plus, ds, hplus, -, rfl, -⟩ := h
  intro c hc
  rcases List.mem_append.1 hc with hc | hc
  · rcases hplus with rfl | rfl
    · cases hc
    · rw [List.mem_singleton.1 hc]
      decide
  · obtain ⟨d, -, rfl⟩ := List.mem_map.1 hc
    exact hdigit d

namespace Tensor

/-! ### Sizes -/

/-- A text spells a counter: it is a numeral of it, between white space. -/
def Spells (text : String) (n : Nat) : Prop :=
  ∃ left numeral right, text.toList = left ++ numeral ++ right ∧ (∀ c ∈ left, isBlank c = true) ∧
    (∀ c ∈ right, isBlank c = true) ∧ Decimal.Numeral numeral n ∧ n < Counter.limit

variable {text name : String} {n : Nat} {node : NodeId} {values : List String}

/-- **The sizes that are read are those that are spelled.** -/
theorem readSize_eq_ok_iff : readSize text = .ok n ↔ Spells text n := by
  rw [readSize, Decimal.readChars_eq_ok_iff (by decide)]
  constructor
  · rintro ⟨hnumeral, hlt⟩
    obtain ⟨left, right, htext, hleft, hright⟩ := exists_trimBlank text.toList
    exact ⟨left, _, right, htext, hleft, hright, hnumeral, hlt⟩
  · rintro ⟨left, numeral, right, htext, hleft, hright, hnumeral, hlt⟩
    rw [htext, trimBlank_append hleft hright hnumeral.visible hnumeral.ne_nil]
    exact ⟨hnumeral, hlt⟩

/-- A size is read, or it spells nothing. -/
theorem readSize_cases (text : String) : (∃ n, readSize text = .ok n ∧ Spells text n) ∨
    ∃ e, readSize text = .error e ∧ ∀ n, ¬Spells text n := by
  cases h : readSize text with
  | ok n => exact .inl ⟨n, rfl, readSize_eq_ok_iff.1 h⟩
  | error e =>
      refine .inr ⟨e, rfl, fun n hn => ?_⟩
      cases h.symm.trans (readSize_eq_ok_iff.2 hn)

/-! ### Pairs -/

/-- A list of texts lists tensors: at twice the place of each one stands its name, and behind it a text
that spells its size. -/
def Lists (values : List String) (ts : List Tensor) : Prop :=
  values.length = 2 * ts.length ∧ ∀ i t, ts[i]? = some t →
    values[2 * i]? = some t.name ∧ ∃ text, values[2 * i + 1]? = some text ∧ Spells text t.size

/-- The pair with a number is the first of a list of which the size spells nothing. -/
structure FirstBad (values : List String) (i : Nat) (name text : String) : Prop where
  name_eq : values[2 * i]? = some name
  text_eq : values[2 * i + 1]? = some text
  bad : ∀ n, ¬Spells text n
  first : ∀ j < i, ∃ text n, values[2 * j + 1]? = some text ∧ Spells text n

variable {ts : List Tensor} {t : Tensor} {i : Nat} {name' text' : String}

theorem lists_nil_iff : Lists [] ts ↔ ts = [] := by
  constructor
  · rintro ⟨hlength, -⟩
    rw [List.length_nil] at hlength
    exact List.length_eq_zero_iff.1 (by omega)
  · rintro rfl
    exact ⟨rfl, fun i t h => by cases h⟩

/-- The first pair gives the first tensor, and the other pairs the others. -/
theorem lists_cons_iff : Lists (name :: text :: values) ts ↔
    ∃ t ts', ts = t :: ts' ∧ t.name = name ∧ Spells text t.size ∧ Lists values ts' := by
  constructor
  · rintro ⟨hlength, hall⟩
    cases ts with
    | nil => cases hlength
    | cons t ts' =>
        obtain ⟨hname, text', htext, hspells⟩ := hall 0 t rfl
        cases hname
        cases htext
        refine ⟨t, ts', rfl, rfl, hspells, ?_, fun i t h => hall (i + 1) t h⟩
        simp only [List.length_cons] at hlength
        omega
  · rintro ⟨t, ts', rfl, rfl, hspells, hlength, hall⟩
    refine ⟨by simp only [List.length_cons, hlength]; omega, fun i t' h => ?_⟩
    cases i with
    | zero =>
        cases h
        exact ⟨rfl, text, rfl, hspells⟩
    | succ i => exact hall i t' h

/-- Behind a pair that can be read the first bad one is looked for among the others. -/
theorem firstBad_cons_of_spells (spells : Spells text' n) :
    FirstBad (name' :: text' :: values) i name text ↔
      ∃ k, i = k + 1 ∧ FirstBad values k name text := by
  constructor
  · intro h
    cases i with
    | zero =>
        cases h.text_eq
        exact absurd spells (h.bad n)
    | succ k => exact ⟨k, rfl, h.name_eq, h.text_eq, h.bad, fun j hj => h.first (j + 1) (Nat.succ_lt_succ hj)⟩
  · rintro ⟨k, rfl, h⟩
    refine ⟨h.name_eq, h.text_eq, h.bad, fun j hj => ?_⟩
    cases j with
    | zero => exact ⟨text', n, rfl, spells⟩
    | succ j => exact h.first j (Nat.lt_of_succ_lt_succ hj)

/-- A bad pair in front is the first one. -/
theorem firstBad_cons_of_bad (bad : ∀ n, ¬Spells text' n) :
    FirstBad (name' :: text' :: values) i name text ↔ i = 0 ∧ name' = name ∧ text' = text := by
  constructor
  · intro h
    cases i with
    | zero =>
        cases h.name_eq
        cases h.text_eq
        exact ⟨rfl, rfl, rfl⟩
    | succ k =>
        obtain ⟨text, n, htext, hspells⟩ := h.first 0 (Nat.succ_pos k)
        cases htext
        exact absurd hspells (bad n)
  · rintro ⟨rfl, rfl, rfl⟩
    exact ⟨rfl, rfl, bad, fun j hj => absurd hj (Nat.not_lt_zero j)⟩

/-- **The pairs of an even list are read exactly** if all their sizes spell something. -/
theorem parsePairs_eq_ok_iff : ∀ {values : List String} {ts : List Tensor}, values.length % 2 = 0 →
    (parsePairs node values = .ok ts ↔ Lists values ts)
  | [], ts, _ => by
      rw [lists_nil_iff]
      exact ⟨fun h => by cases h; rfl, fun h => by rw [h]; rfl⟩
  | [_], ts, heven => by cases heven
  | name :: text :: values, ts, heven => by
      have hrest : values.length % 2 = 0 := by
        simp only [List.length_cons] at heven
        omega
      rw [parsePairs, lists_cons_iff]
      rcases readSize_cases text with ⟨n, hn, -⟩ | ⟨e, he, hbad⟩
      · rw [hn]
        dsimp only
        constructor
        · intro h
          cases hparse : parsePairs node values with
          | error x => rw [hparse] at h; cases h
          | ok ts' =>
              rw [hparse] at h
              cases h
              exact ⟨_, ts', rfl, rfl, readSize_eq_ok_iff.1 hn, (parsePairs_eq_ok_iff hrest).1 hparse⟩
        · rintro ⟨t, ts', rfl, rfl, hspells, hlists⟩
          cases hn.symm.trans (readSize_eq_ok_iff.2 hspells)
          rw [(parsePairs_eq_ok_iff hrest).2 hlists]
          rfl
      · rw [he]
        refine iff_of_false (fun h => by cases h) ?_
        rintro ⟨t, ts', -, -, hspells, -⟩
        exact hbad _ hspells

/-- **Pairs are refused over the first bad one.** -/
theorem parsePairs_eq_error_iff {x : ReplayError} : ∀ {values : List String},
    parsePairs node values = .error x ↔ ∃ i name text e, FirstBad values i name text ∧
      readSize text = .error e ∧
      x = .malformedTensorList node s!"size '{text}' of tensor '{name}': {e.message}"
  | [] => by
      refine iff_of_false (fun h => by cases h) ?_
      rintro ⟨i, name, text, e, h, -⟩
      cases h.text_eq
  | [_] => by
      refine iff_of_false (fun h => by cases h) ?_
      rintro ⟨i, name, text, e, h, -⟩
      cases h.text_eq
  | name :: text :: values => by
      rw [parsePairs]
      rcases readSize_cases text with ⟨n, hn, hspells⟩ | ⟨e, he, hbad⟩
      · simp only [hn, firstBad_cons_of_spells hspells]
        constructor
        · intro h
          cases hparse : parsePairs node values with
          | ok ts' => rw [hparse] at h; cases h
          | error x' =>
              rw [hparse] at h
              cases h
              obtain ⟨i, name, text, e, hfirst, hrest⟩ := parsePairs_eq_error_iff.1 hparse
              exact ⟨i + 1, name, text, e, ⟨i, rfl, hfirst⟩, hrest⟩
        · rintro ⟨_, name, text, e, ⟨i, rfl, hfirst⟩, hrest⟩
          rw [parsePairs_eq_error_iff.2 ⟨i, name, text, e, hfirst, hrest⟩]
          rfl
      · simp only [he, firstBad_cons_of_bad hbad]
        constructor
        · rintro ⟨⟩
          exact ⟨0, name, text, e, ⟨rfl, rfl, rfl⟩, he, rfl⟩
        · rintro ⟨_, _, _, e', ⟨-, rfl, rfl⟩, he', rfl⟩
          cases he.symm.trans he'
          rfl

/-! ### Lists -/

/-- A list is read if it lists tensors. -/
theorem parseList_eq_ok_iff : parseList node values = .ok ts ↔ Lists values ts := by
  rw [parseList]
  split
  next heven => exact parsePairs_eq_ok_iff heven
  next hodd =>
    refine iff_of_false (fun h => by cases h) ?_
    rintro ⟨hlength, -⟩
    omega

/-- A list is refused over its length, or else over its first bad pair. -/
theorem parseList_eq_error_iff {x : ReplayError} : parseList node values = .error x ↔
    (values.length % 2 = 1 ∧
      x = .malformedTensorList node s!"expected name/size pairs, got {values.length} entries") ∨
    (values.length % 2 = 0 ∧ ∃ i name text e, FirstBad values i name text ∧
      readSize text = .error e ∧
      x = .malformedTensorList node s!"size '{text}' of tensor '{name}': {e.message}") := by
  rw [parseList]
  split
  next heven =>
    rw [parsePairs_eq_error_iff, or_iff_right fun h => by omega, and_iff_right heven]
  next hodd =>
    rw [or_iff_left fun h => hodd h.1, and_iff_right (by omega)]
    exact ⟨fun h => by cases h; rfl, fun h => by rw [h]⟩

/-- What is written down spells its size. -/
theorem spells_write {left right : String} (hleft : ∀ c ∈ left.toList, isBlank c = true)
    (hright : ∀ c ∈ right.toList, isBlank c = true) (hlt : n < Counter.limit) :
    Spells (left ++ Decimal.write n ++ right) n :=
  ⟨left.toList, (Decimal.digits n).map Digit.char, right.toList, by simp [Decimal.write], hleft, hright,
    Decimal.numeral_digits n, hlt⟩

/-- Tensors that are written down one after another, with white space around their sizes, are listed. -/
theorem lists_flatMap {entries : List (String × Tensor × String)}
    (h : ∀ e ∈ entries, (∀ c ∈ e.1.toList, isBlank c = true) ∧ e.2.1.size < Counter.limit ∧
      ∀ c ∈ e.2.2.toList, isBlank c = true) :
    Lists (entries.flatMap fun e => [e.2.1.name, e.1 ++ Decimal.write e.2.1.size ++ e.2.2])
      (entries.map fun e => e.2.1) := by
  induction entries with
  | nil => exact lists_nil_iff.2 rfl
  | cons e entries ih =>
      obtain ⟨⟨hleft, hlt, hright⟩, hrest⟩ := List.forall_mem_cons.1 h
      exact lists_cons_iff.2 ⟨e.2.1, _, rfl, rfl, spells_write hleft hright hlt, ih hrest⟩

/-- **Lists of tensors are read exactly.**  A list gives the tensors that it lists, in their order.  It is
read exactly if its length is even and every text at an odd place spells a counter: white space, perhaps a
plus sign, one or more digits, white space.  Otherwise it is malformed, because of its odd length, or else
because of its first bad pair, which is named.  Tensors whose sizes are counters are read back after they
were written down, with any white space around their sizes. -/
theorem lists_exactly (node : NodeId) :
    (∀ values ts, parseList node values = .ok ts ↔ Lists values ts) ∧
    (∀ values, (∃ ts, parseList node values = .ok ts) ↔ values.length % 2 = 0 ∧
      ∀ (i : Nat) text, values[2 * i + 1]? = some text → ∃ n, Spells text n) ∧
    (∀ values x, parseList node values = .error x ↔
      (values.length % 2 = 1 ∧
        x = .malformedTensorList node s!"expected name/size pairs, got {values.length} entries") ∨
      (values.length % 2 = 0 ∧ ∃ i name text e, FirstBad values i name text ∧
        readSize text = .error e ∧
        x = .malformedTensorList node s!"size '{text}' of tensor '{name}': {e.message}")) ∧
    ∀ entries : List (String × Tensor × String),
      (∀ e ∈ entries, (∀ c ∈ e.1.toList, isBlank c = true) ∧ e.2.1.size < Counter.limit ∧
        ∀ c ∈ e.2.2.toList, isBlank c = true) →
      parseList node (entries.flatMap fun e =>
          [e.2.1.name, e.1 ++ Decimal.write e.2.1.size ++ e.2.2]) =
        .ok (entries.map fun e => e.2.1) := by
  refine ⟨fun values ts => parseList_eq_ok_iff, fun values => ⟨?_, ?_⟩,
    fun values x => parseList_eq_error_iff, fun entries h => parseList_eq_ok_iff.2 (lists_flatMap h)⟩
  · rintro ⟨ts, hts⟩
    obtain ⟨hlength, hall⟩ := parseList_eq_ok_iff.1 hts
    refine ⟨by omega, fun i text htext => ?_⟩
    have hi : i < ts.length := by
      have hlt := (List.getElem?_eq_some_iff.1 htext).1
      omega
    obtain ⟨-, text', htext', hspells⟩ := hall i ts[i] (List.getElem?_eq_getElem hi)
    cases htext.symm.trans htext'
    exact ⟨_, hspells⟩
  · rintro ⟨heven, hall⟩
    cases hparse : parseList node values with
    | ok ts => exact ⟨ts, rfl⟩
    | error x =>
        rcases parseList_eq_error_iff.1 hparse with ⟨hodd, -⟩ | ⟨-, i, name, text, e, hfirst, -⟩
        · omega
        · obtain ⟨n, hn⟩ := hall i text hfirst.text_eq
          exact absurd hn (hfirst.bad n)

/-- Two tensors with what stands around their sizes: the greatest size has a no-break space in front of it
and a line end behind it. -/
def padded : List (String × Tensor × String) :=
  [("\u00a0", ⟨"a", 18446744073709551615⟩, "\n"), ("", ⟨"", 0⟩, "")]

theorem lists_exactly_padded :
    (∀ e ∈ padded, (∀ c ∈ e.1.toList, isBlank c = true) ∧ e.2.1.size < Counter.limit ∧
        ∀ c ∈ e.2.2.toList, isBlank c = true) ∧
      parseList 7 ["a", "\u00a018446744073709551615\n", "", "0"] =
        .ok [⟨"a", 18446744073709551615⟩, ⟨"", 0⟩] := by
  have hblank : isBlank '\u00a0' = true ∧ isBlank '\n' = true := by decide
  have hpadded : ∀ e ∈ padded, (∀ c ∈ e.1.toList, isBlank c = true) ∧ e.2.1.size < Counter.limit ∧
      ∀ c ∈ e.2.2.toList, isBlank c = true := by
    simpa [padded, Counter.limit] using hblank
  have hwritten : (padded.flatMap fun e =>
      [e.2.1.name, e.1 ++ Decimal.write e.2.1.size ++ e.2.2]) =
      ["a", "\u00a018446744073709551615\n", "", "0"] := by
    decide +kernel
  have hread := (lists_exactly 7).2.2.2 padded hpadded
  rw [hwritten] at hread
  exact ⟨hpadded, hread⟩

end Tensor

end TraceReplay
