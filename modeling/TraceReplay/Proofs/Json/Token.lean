/-
**Tokens are read as they are written.**

The scanner takes a token off the front of some characters and leaves the others alone.  What it takes is
the token that is written there, whatever follows; only a number has to be told where it ends, because a
digit, a point or an exponent behind it would be taken for a part of it.  So tokens that are written one
behind the other, with something else between any two numbers, are read back as they are.

Main definitions:

* `Json.EndsNumber` — characters that do not go on with a number;
* `Json.ReadBack` — tokens that are read as they are written.

Main results:

* `Json.scanNumber?_form` — **numbers** are read back, with sign, point and exponent;
* `Json.pieces?_textForm` — **texts** are read back, whichever of their characters are escaped;
* `Json.Token.scan?_chars` — so is every token;
* `Json.ReadBack.append_cons` — tokens are read back together if no number meets another one.
-/

import TraceReplay.Json.Token
import TraceReplay.Proofs.Text.Decimal

set_option relaxedAutoImplicit false
set_option autoImplicit false

namespace TraceReplay

namespace Json

open Binary64 (scanDigits)

variable {c : Char} {cs rest : List Char} {ds : List Digit} {t : Token} {ts us : List Token}

/-! ### Numbers -/

/-- Characters that do not go on with a number. -/
def EndsNumber (rest : List Char) : Prop :=
  ∀ c ∈ rest.head?, Digit.ofChar? c = none ∧ c ≠ '.' ∧ c ≠ 'e' ∧ c ≠ 'E'

theorem endsNumber_nil : EndsNumber [] := by
  rintro c ⟨⟩

theorem endsNumber_cons (h : Digit.ofChar? c = none ∧ c ≠ '.' ∧ c ≠ 'e' ∧ c ≠ 'E') :
    EndsNumber (c :: rest) := by
  rintro d ⟨⟩
  exact h

/-- Digits are read up to the first character that is none. -/
theorem scanDigits_append (h : ∀ c ∈ rest.head?, Digit.ofChar? c = none) :
    scanDigits (ds.map Digit.char ++ rest) = (ds, rest) := by
  induction ds with
  | nil =>
      cases rest with
      | nil => rfl
      | cons c rest => rw [List.map_nil, List.nil_append, scanDigits, h c rfl]
  | cons d ds ih => rw [List.map_cons, List.cons_append, scanDigits, Digit.ofChar?_char, ih]

theorem scanSign_form (negative : Bool) (h : ∀ c ∈ cs.head?, c ≠ '-') :
    scanSign ((if negative then ['-'] else []) ++ cs) = (negative, cs) := by
  cases negative with
  | true => rfl
  | false =>
      cases cs with
      | nil => rfl
      | cons c cs =>
          have hc := h c rfl
          simp [scanSign, hc]

theorem scanWhole?_digits (n : Nat) (h : ∀ c ∈ rest.head?, Digit.ofChar? c = none) :
    scanWhole? ((Decimal.digits n).map Digit.char ++ rest) = some (n, rest) := by
  rw [scanWhole?, scanDigits_append h]
  rcases Decimal.digits_cases n with ⟨d, hd, hval⟩ | ⟨d, ds, hds, hne, hd⟩
  · rw [hd, ← hval]
  · obtain ⟨e, es, rfl⟩ := List.exists_cons_of_ne_nil hne
    have hvalue := Decimal.value_digits n
    rw [hds] at hvalue ⊢
    dsimp only
    rw [if_neg hd, hvalue]

theorem scanFraction?_form (h : ∀ c ∈ rest.head?, Digit.ofChar? c = none ∧ c ≠ '.') :
    scanFraction? ((if ds = [] then [] else '.' :: ds.map Digit.char) ++ rest) = some (ds, rest) := by
  split
  next hds =>
    subst hds
    cases rest with
    | nil => rfl
    | cons c rest =>
        have hc := (h c rfl).2
        simp [scanFraction?, hc]
  next hds =>
    obtain ⟨d, ds, rfl⟩ := List.exists_cons_of_ne_nil hds
    rw [List.cons_append, scanFraction?, scanDigits_append fun c hc => (h c hc).1]

theorem scanPower?_digits (negative : Bool) (n : Nat) (h : ∀ c ∈ rest.head?, Digit.ofChar? c = none) :
    scanPower? negative ((Decimal.digits n).map Digit.char ++ rest)
      = some (some (if negative then -(n : Int) else n), rest) := by
  obtain ⟨d, ds, hds⟩ := List.exists_cons_of_ne_nil (Decimal.digits_ne_nil n)
  have hvalue := Decimal.value_digits n
  rw [scanPower?, scanDigits_append h]
  rw [hds] at hvalue ⊢
  dsimp only
  rw [hvalue]

theorem scanExponent?_form (e : Option Int) (h : EndsNumber rest) :
    scanExponent? (exponentForm e ++ rest) = some (e, rest) := by
  have hdigits : ∀ c ∈ rest.head?, Digit.ofChar? c = none := fun c hc => (h c hc).1
  cases e with
  | none =>
      cases rest with
      | nil => rfl
      | cons c rest =>
          obtain ⟨-, -, hlower, hupper⟩ := h c rfl
          simp [exponentForm, scanExponent?, hlower, hupper]
  | some e =>
      rw [exponentForm]
      split
      next hneg =>
        simp only [List.cons_append, scanExponent?, true_or, if_true]
        rw [scanPower?_digits true _ hdigits]
        simp only [if_true, Option.some.injEq, Prod.mk.injEq, and_true]
        omega
      next hpos =>
        simp only [List.cons_append, scanExponent?, true_or, if_true]
        rw [scanPower?_digits false _ hdigits]
        simp only [Bool.false_eq_true, if_false, Option.some.injEq, Prod.mk.injEq, and_true]
        omega

/-- An exponent starts with its mark. -/
theorem head?_exponentForm (e : Option Int) (h : EndsNumber rest) :
    ∀ c ∈ (exponentForm e ++ rest).head?, Digit.ofChar? c = none ∧ c ≠ '.' := by
  cases e with
  | none => exact fun c hc => ⟨(h c hc).1, (h c hc).2.1⟩
  | some e =>
      rw [exponentForm]
      split <;> · rintro c ⟨⟩; decide

/-- A fraction starts with its point. -/
theorem head?_fraction (ds : List Digit) (h : ∀ c ∈ rest.head?, Digit.ofChar? c = none) :
    ∀ c ∈ ((if ds = [] then [] else '.' :: ds.map Digit.char) ++ rest).head?, Digit.ofChar? c = none := by
  split
  next => exact h
  next => rintro c ⟨⟩; decide

/-- **A number is read as it is written**, if what follows does not go on with it. -/
theorem scanNumber?_form (n : Number) (h : EndsNumber rest) :
    scanNumber? (n.form ++ rest) = some (n, rest) := by
  have hexponent := head?_exponentForm n.exponent h
  have hfraction := head?_fraction n.fraction fun c hc => (hexponent c hc).1
  have hsign : ∀ c ∈ ((Decimal.digits n.whole).map Digit.char ++
      ((if n.fraction = [] then [] else '.' :: n.fraction.map Digit.char)
        ++ (exponentForm n.exponent ++ rest))).head?, c ≠ '-' := by
    obtain ⟨d, ds, hds⟩ := List.exists_cons_of_ne_nil (Decimal.digits_ne_nil n.whole)
    have hchar : ∀ d : Digit, d.char ≠ '-' := by decide
    rw [hds]
    rintro c ⟨⟩
    exact hchar d
  rw [scanNumber?, Number.form]
  simp only [List.append_assoc]
  rw [scanSign_form _ hsign]
  dsimp only
  rw [scanWhole?_digits _ hfraction, Option.bind_some]
  rw [scanFraction?_form hexponent, Option.bind_some]
  rw [scanExponent?_form _ h, Option.map_some]

/-- A number starts with its sign or with a digit. -/
theorem exists_form_eq_cons (n : Number) :
    ∃ c cs, n.form = c :: cs ∧ (c = '-' ∨ ∃ d : Digit, c = d.char) := by
  obtain ⟨d, ds, hds⟩ := List.exists_cons_of_ne_nil (Decimal.digits_ne_nil n.whole)
  rw [Number.form, hds]
  cases n.negative with
  | true => exact ⟨'-', _, rfl, .inl rfl⟩
  | false => exact ⟨d.char, _, rfl, .inr ⟨d, rfl⟩⟩

/-! ### Texts -/

theorem digit?_hexChar {n : Nat} (h : n < 16) : Radix.digit? (hexChar n) = some n := by
  revert n
  decide

/-- A unit that is no half of a surrogate pair spells a character by itself. -/
theorem spell?_unit {u : Nat} (hleading : isLeading u = false) (htrailing : isTrailing u = false)
    (ps : List Piece) : spell? (.unit u :: ps) = (spell? ps).map (Char.ofNat u :: ·) := by
  rw [spell?.eq_def]
  dsimp only
  rw [if_neg (by rw [hleading]; exact Bool.false_ne_true),
    if_neg (by rw [htrailing]; exact Bool.false_ne_true)]

/-- A character is written as one piece, which spells it. -/
theorem exists_piece (c : Char) : ∃ p,
    (∀ rest, pieces? (charForm c ++ rest) = (pieces? rest).map fun r => (p :: r.1, r.2)) ∧
      ∀ ps, spell? (p :: ps) = (spell? ps).map (c :: ·) := by
  have hspell (c : Char) : ∀ ps, spell? (.char c :: ps) = (spell? ps).map (c :: ·) := fun _ => rfl
  fun_cases charForm c with
  | case8 c hquote hslash _ _ _ _ _ hcontrol =>
      -- a control is below the surrogates, so that its unit spells it by itself
      have hleading : isLeading c.toNat = false := by simp [isLeading]; omega
      have htrailing : isTrailing c.toNat = false := by simp [isTrailing]; omega
      refine ⟨.unit c.toNat, fun rest => ?_, fun ps => ?_⟩
      · have hunit : hexUnit? '0' '0' (hexChar (c.toNat / 16)) (hexChar (c.toNat % 16))
            = some c.toNat := by
          have hzero : Radix.digit? '0' = some 0 := by decide
          rw [hexUnit?, hzero, digit?_hexChar (by omega), digit?_hexChar (by omega)]
          simp only [Option.some.injEq]
          omega
        simp only [List.cons_append, List.nil_append, pieces?, hunit]
        cases pieces? rest <;> rfl
      · rw [spell?_unit hleading htrailing, Char.ofNat_toNat]
  | case9 c hquote hslash _ _ _ _ _ hcontrol =>
      refine ⟨.char c, fun rest => ?_, hspell c⟩
      rw [List.singleton_append, pieces?]
      · rw [if_neg (by simp [hcontrol]; exact hslash)]
      · exact hquote
      · exact fun _ _ _ _ _ h => absurd h hslash
      · exact fun _ _ h => absurd h hslash
  | _ =>
      refine ⟨_, fun rest => ?_, hspell _⟩
      rw [List.cons_append, List.cons_append, List.nil_append, pieces?]
      · cases pieces? rest <;> rfl
      · simp

/-- The characters of a text are read as pieces that spell them. -/
theorem pieces?_flatMap_charForm (cs rest : List Char) :
    ∃ ps, pieces? (cs.flatMap charForm ++ '"' :: rest) = some (ps, rest) ∧ spell? ps = some cs := by
  induction cs with
  | nil => exact ⟨[], by simp [pieces?], rfl⟩
  | cons c cs ih =>
      obtain ⟨ps, hpieces, hspell⟩ := ih
      obtain ⟨p, hread, hp⟩ := exists_piece c
      refine ⟨p :: ps, ?_, ?_⟩
      · rw [List.flatMap_cons, List.append_assoc, hread, hpieces, Option.map_some]
      · rw [hp, hspell, Option.map_some]

/-- **A text is read as it is written**, also one that spells nothing. -/
theorem pieces?_textForm (s : Option String) (rest : List Char) : ∃ ps,
    pieces? (textForm s ++ rest) = some (ps, rest) ∧ (spell? ps).map String.ofList = s := by
  cases s with
  | none =>
      have hunit : hexUnit? 'd' '8' '0' '0' = some 0xd800 := by decide
      refine ⟨[.unit 0xd800], ?_, by decide⟩
      simp [textForm, pieces?, hunit]
  | some s =>
      obtain ⟨ps, hpieces, hspell⟩ := pieces?_flatMap_charForm s.toList rest
      refine ⟨ps, ?_, ?_⟩
      · rw [textForm, List.append_assoc, List.singleton_append, hpieces]
      · rw [hspell, Option.map_some, String.ofList_toList]

/-! ### Tokens -/

namespace Token

/-- Whether a token is a number. -/
def isNumber : Token → Bool
  | number _ => true
  | _ => false

/-- What does not start like another token is read as a number. -/
theorem scan?_of_not_mem (h : c ∉ ['[', ']', '\x7b', '\x7d', ',', ':', 'n', 't', 'f', '"']) :
    scan? (c :: cs) = (scanNumber? (c :: cs)).map fun r => (number r.1, r.2) := by
  simp only [List.mem_cons, List.not_mem_nil, or_false, not_or] at h
  rw [scan?]
  all_goals grind

theorem scan?_form (n : Number) (h : EndsNumber rest) :
    scan? (n.form ++ rest) = some (number n, rest) := by
  have hdigit : ∀ d : Digit, d.char ∉ ['[', ']', '\x7b', '\x7d', ',', ':', 'n', 't', 'f', '"'] := by
    decide
  have hnumber := scanNumber?_form n h
  obtain ⟨c, cs, hform, hc⟩ := exists_form_eq_cons n
  rw [hform, List.cons_append] at hnumber ⊢
  rw [scan?_of_not_mem, hnumber, Option.map_some]
  rcases hc with rfl | ⟨d, rfl⟩
  · decide
  · exact hdigit d

/-- **A token is read as it is written**, if nothing that goes on with a number follows one. -/
theorem scan?_chars (t : Token) (h : t.isNumber → EndsNumber rest) :
    scan? (t.chars ++ rest) = some (t, rest) := by
  cases t with
  | bool b => cases b <;> rfl
  | number n => exact scan?_form n (h rfl)
  | string s =>
      obtain ⟨ps, hpieces, hspell⟩ := pieces?_textForm s rest
      rw [chars, List.cons_append, scan?, hpieces, Option.map_some, hspell]
  | _ => rfl

/-- A token starts with a character that is no gap; unless it is a number, the character does not go on with
one. -/
theorem exists_chars_eq_cons (t : Token) : ∃ c cs, t.chars = c :: cs ∧ isGap c = false ∧
    (t.isNumber = false → Digit.ofChar? c = none ∧ c ≠ '.' ∧ c ≠ 'e' ∧ c ≠ 'E') := by
  cases t with
  | bool b => cases b <;> exact ⟨_, _, rfl, by decide, fun _ => by decide⟩
  | number n =>
      have hdigit : ∀ d : Digit, isGap d.char = false := by decide
      obtain ⟨c, cs, hform, rfl | ⟨d, rfl⟩⟩ := exists_form_eq_cons n
      · exact ⟨_, cs, hform, by decide, fun h => by cases h⟩
      · exact ⟨_, cs, hform, hdigit d, fun h => by cases h⟩
  | _ => exact ⟨_, _, rfl, by decide, fun _ => by decide⟩

/-- A token that is no number ends one in front of it. -/
theorem endsNumber_chars (h : t.isNumber = false) (rest : List Char) : EndsNumber (t.chars ++ rest) := by
  obtain ⟨c, cs, hchars, -, hends⟩ := t.exists_chars_eq_cons
  rw [hchars]
  exact endsNumber_cons (hends h)

end Token

/-- A token that is written in front of others is read first. -/
theorem tokens?_chars_append (t : Token) (h : t.isNumber → EndsNumber rest) :
    tokens? (t.chars ++ rest) = (tokens? rest).map (t :: ·) := by
  have hscan := t.scan?_chars h
  obtain ⟨c, cs, hchars, hgap, -⟩ := t.exists_chars_eq_cons
  rw [hchars, List.cons_append] at hscan ⊢
  rw [tokens?, hgap]
  simp only [Bool.false_eq_true, if_false]
  split
  next hnone => rw [hscan] at hnone; cases hnone
  next hsome => rw [hscan] at hsome; cases hsome; rfl

/-- Tokens that are read as they are written, if what follows does not go on with a number. -/
def ReadBack (ts : List Token) : Prop :=
  ∀ rest, EndsNumber rest → tokens? (ts.flatMap Token.chars ++ rest) = (tokens? rest).map (ts ++ ·)

namespace ReadBack

theorem nil : ReadBack [] := by
  intro rest _
  rw [List.flatMap_nil, List.nil_append]
  exact (Option.map_id_apply).symm

/-- A single token is read back. -/
theorem singleton (t : Token) : ReadBack [t] := by
  intro rest h
  rw [List.flatMap_singleton, tokens?_chars_append t fun _ => h]
  rfl

/-- Tokens are read back together if the second ones do not start with a number. -/
theorem append_cons (hts : ReadBack ts) (ht : t.isNumber = false) (hus : ReadBack us) :
    ReadBack (ts ++ t :: us) := by
  intro rest h
  have hfirst : EndsNumber ((t :: us).flatMap Token.chars ++ rest) := by
    rw [List.flatMap_cons, List.append_assoc]
    exact Token.endsNumber_chars ht _
  rw [List.flatMap_append, List.append_assoc, hts _ hfirst]
  rw [List.flatMap_cons, List.append_assoc, tokens?_chars_append t (by simp [ht]), hus rest h]
  simp [Function.comp_def]

/-- A token that is no number is read back in front of others. -/
theorem cons (ht : t.isNumber = false) (hts : ReadBack ts) : ReadBack (t :: ts) :=
  nil.append_cons ht hts

end ReadBack

end Json

end TraceReplay
