/-
**Numerals are read exactly.**

The reader of numerals takes digit after digit and stops as soon as the number is too large.  Further digits
never make a number smaller, so it reads exactly those numerals whose number is below the limit: an optional
plus sign and one or more digits, leading zeros included.  What is written is such a numeral, without a plus
sign and without leading zeros.

Main definitions:

* `Decimal.Numeral` — characters that are a numeral of a number.

Main results:

* `Digit.ofChar?_eq_some_iff` — ten characters are digits;
* `Decimal.readFrom_eq_ok_iff`, `Decimal.readChars_eq_ok_iff` — **numerals below the limit are read
  exactly**;
* `Decimal.numeral_digits` — what is written is a numeral;
* `Decimal.digits_cases` — it has one digit, or starts with another digit than zero.
-/

import TraceReplay.Text.Decimal

set_option relaxedAutoImplicit false
set_option autoImplicit false

namespace TraceReplay

namespace Digit

variable {c : Char} {d e : Digit}

/-- **The digits are ten characters.** -/
theorem ofChar?_eq_some_iff : ofChar? c = some d ↔ c = d.char := by
  constructor
  · intro h
    rw [ofChar?] at h
    split at h
    next hdigit =>
      simp only [Char.isDigit, Bool.and_eq_true, decide_eq_true_eq, ge_iff_le, UInt32.le_iff_toNat_le] at hdigit
      have hlow : 48 ≤ c.toNat := hdigit.1
      have hhigh : c.toNat ≤ 57 := hdigit.2
      cases h
      have hval : 48 + (Fin.ofNat 10 (c.toNat - 48)).val = c.toNat := by
        simp only [Fin.ofNat]
        omega
      rw [char, hval, Char.ofNat_toNat]
    next => cases h
  · rintro rfl
    exact ofChar?_char d

theorem char_inj : d.char = e.char ↔ d = e := by
  constructor
  · intro h
    exact Option.some.inj ((ofChar?_char d).symm.trans (h ▸ ofChar?_char e))
  · rintro rfl
    rfl

end Digit

namespace Decimal

variable {limit acc n : Nat} {cs : List Char} {ds : List Digit}

theorem valueFrom_cons (acc : Nat) (d : Digit) (ds : List Digit) :
    valueFrom acc (d :: ds) = valueFrom (10 * acc + d) ds := rfl

/-- Further digits never make a number smaller. -/
theorem le_valueFrom (ds : List Digit) : ∀ acc : Nat, acc ≤ valueFrom acc ds := by
  induction ds with
  | nil => exact Nat.le_refl
  | cons d ds ih =>
      intro acc
      have hnext := ih (10 * acc + d)
      rw [valueFrom_cons]
      omega

/-- The digits that are read after others are those that keep the number below the limit. -/
theorem readFrom_eq_ok_iff (h : acc < limit) : readFrom limit acc cs = .ok n ↔
    ∃ ds : List Digit, cs = ds.map Digit.char ∧ valueFrom acc ds = n ∧ n < limit := by
  induction cs generalizing acc with
  | nil =>
      rw [readFrom]
      constructor
      · rintro ⟨⟩
        exact ⟨[], rfl, rfl, h⟩
      · rintro ⟨ds, hds, rfl, -⟩
        rw [List.map_eq_nil_iff.1 hds.symm]
        rfl
  | cons c cs ih =>
      -- a numeral that starts with `c` goes on with the digits behind it
      have hstart {d : Digit} (hd : Digit.ofChar? c = some d) (ds : List Digit) :
          c :: cs = ds.map Digit.char ↔ ∃ ds', ds = d :: ds' ∧ cs = ds'.map Digit.char := by
        rw [Digit.ofChar?_eq_some_iff.1 hd]
        constructor
        · intro heq
          obtain ⟨d', ds', rfl, hd', hds'⟩ := List.map_eq_cons_iff.1 heq.symm
          exact ⟨ds', by rw [Digit.char_inj.1 hd'], hds'.symm⟩
        · rintro ⟨ds', rfl, rfl⟩
          rfl
      rw [readFrom]
      cases hd : Digit.ofChar? c with
      | none =>
          refine iff_of_false (fun h => by cases h) ?_
          rintro ⟨ds, hds, -⟩
          obtain ⟨d, ds', -, rfl, -⟩ := List.map_eq_cons_iff.1 hds.symm
          rw [Digit.ofChar?_char] at hd
          cases hd
      | some d =>
          dsimp only
          simp only [hstart hd]
          split
          next hlt =>
            rw [ih hlt]
            constructor
            · rintro ⟨ds, hcs, hn⟩
              exact ⟨d :: ds, ⟨ds, rfl, hcs⟩, hn⟩
            · rintro ⟨_, ⟨ds, rfl, hcs⟩, hn⟩
              exact ⟨ds, hcs, hn⟩
          next hge =>
            refine iff_of_false (fun h => by cases h) ?_
            rintro ⟨_, ⟨ds, rfl, -⟩, rfl, hlt⟩
            exact hge (Nat.lt_of_le_of_lt (le_valueFrom ds _) hlt)

/-- Characters that are a numeral of a number: perhaps a plus sign, and then one or more digits that spell
it. -/
def Numeral (cs : List Char) (n : Nat) : Prop :=
  ∃ plus ds, (plus = [] ∨ plus = ['+']) ∧ ds ≠ [] ∧ cs = plus ++ ds.map Digit.char ∧ value ds = n

/-- **Numerals below the limit are read exactly.** -/
theorem readChars_eq_ok_iff (hlimit : 0 < limit) :
    readChars limit cs = .ok n ↔ Numeral cs n ∧ n < limit := by
  have hdigits (cs : List Char) (hne : cs ≠ []) : readFrom limit 0 cs = .ok n ↔
      (∃ ds, ds ≠ [] ∧ cs = ds.map Digit.char ∧ value ds = n) ∧ n < limit := by
    rw [readFrom_eq_ok_iff hlimit]
    constructor
    · rintro ⟨ds, rfl, hn, hlt⟩
      exact ⟨⟨ds, fun h => hne (by rw [h]; rfl), rfl, hn⟩, hlt⟩
    · rintro ⟨⟨ds, -, hcs, hn⟩, hlt⟩
      exact ⟨ds, hcs, hn, hlt⟩
  have hplus (ds : List Digit) (cs : List Char) : ds.map Digit.char ≠ '+' :: cs := by
    intro h
    obtain ⟨d, -, -, hd, -⟩ := List.map_eq_cons_iff.1 h
    revert d
    decide
  fun_cases readChars limit cs with
  | case1 =>
      refine iff_of_false (fun h => by cases h) ?_
      rintro ⟨⟨plus, ds, -, hne, hcs, -⟩, -⟩
      exact hne (List.map_eq_nil_iff.1 (List.append_eq_nil_iff.1 hcs.symm).2)
  | case2 =>
      refine iff_of_false (fun h => by cases h) ?_
      rintro ⟨⟨plus, ds, rfl | rfl, hne, hcs, -⟩, -⟩
      · exact hplus ds [] hcs.symm
      · exact hne (List.map_eq_nil_iff.1 (List.cons.inj hcs).2.symm)
  | case3 cs hne =>
      rw [hdigits cs hne]
      refine and_congr_left fun _ => ⟨?_, ?_⟩
      · rintro ⟨ds, hds, rfl, hn⟩
        exact ⟨['+'], ds, .inr rfl, hds, rfl, hn⟩
      · rintro ⟨plus, ds, rfl | rfl, hds, hcs, hn⟩
        · exact absurd hcs.symm (hplus ds cs)
        · exact ⟨ds, hds, (List.cons.inj hcs).2, hn⟩
  | case4 cs hne hlone hfront =>
      rw [hdigits cs hne]
      refine and_congr_left fun _ => ⟨?_, ?_⟩
      · rintro ⟨ds, hds, rfl, hn⟩
        exact ⟨[], ds, .inl rfl, hds, rfl, hn⟩
      · rintro ⟨plus, ds, rfl | rfl, hds, hcs, hn⟩
        · exact ⟨ds, hds, hcs, hn⟩
        · exact (hfront _ hcs).elim

theorem digits_ne_nil (n : Nat) : digits n ≠ [] := by
  rw [digits]
  split <;> simp

/-- What is written is a numeral. -/
theorem numeral_digits (n : Nat) : Numeral ((digits n).map Digit.char) n :=
  ⟨[], digits n, .inl rfl, digits_ne_nil n, rfl, value_digits n⟩

/-- A number is written with one digit, or the first one is not zero. -/
theorem digits_cases (n : Nat) : (∃ d, digits n = [d] ∧ d.val = n) ∨
    ∃ d ds, digits n = d :: ds ∧ ds ≠ [] ∧ d.val ≠ 0 := by
  fun_induction digits n with
  | case1 n h => exact .inl ⟨_, rfl, Nat.mod_eq_of_lt h⟩
  | case2 n h ih =>
      refine .inr ?_
      rcases ih with ⟨d, hd, hval⟩ | ⟨d, ds, hds, -, hval⟩
      · exact ⟨d, _, by rw [hd]; rfl, List.cons_ne_nil _ _, by omega⟩
      · exact ⟨d, _, by rw [hds]; rfl, by simp, hval⟩

end Decimal

end TraceReplay
