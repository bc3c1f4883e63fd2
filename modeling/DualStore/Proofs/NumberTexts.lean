import Mathlib.Algebra.Group.Int.Defs
import Mathlib.Algebra.Group.Nat.Defs
import DualStore.Json.Numeral
import DualStore.Proofs.Spans

/-!
# Integers written and read

The decimal text of an integer is read back as the integer, by the reader of columns and by the
reader of JSON texts.

* `exists_cons_digits`, `head?_digits_ne_zero`: what a decimal text starts with;
* `readInt64?_intChars`: the text of an integer of 64 bits in a column;
* `intChars_inj`, `intText_inj`: different integers have different texts;
* `absorb_of_le`: the digits of a number that fits into a word are all absorbed;
* `readNumber_intChars`: the text of an integer inside a JSON text.
-/

namespace DualStore.Decimal

/-- A decimal text starts with a digit. -/
theorem exists_cons_digits (n : Nat) : ∃ d ds, digits n = d :: ds ∧ d.isDigit = true := by
  cases hds : digits n with
  | nil => exact absurd hds (digits_ne_nil n)
  | cons d ds =>
    have hall : ∀ c ∈ digits n, c.isDigit = true := List.all_eq_true.mp (all_isDigit_digits n)
    refine ⟨d, ds, rfl, hall d ?_⟩
    rw [hds]
    exact List.mem_cons_self

theorem head?_digits_ne_zero {n : Nat} (h : 0 < n) : (digits n).head? ≠ some '0' := by
  induction n using Nat.strongRecOn with
  | ind n ih =>
    rw [digits]
    by_cases hlt : n < 10
    · rw [Nat.toDigits_of_lt_base hlt]
      intro hhead
      simp only [List.head?_cons, Option.some.injEq, Nat.digitChar_eq_zero] at hhead
      omega
    · obtain ⟨d, ds, hds, _⟩ := exists_cons_digits (n / 10)
      have hne : (digits (n / 10)).head? ≠ some '0' := ih (n / 10) (by omega) (by omega)
      rw [hds] at hne
      rw [Nat.toDigits_of_base_le (by decide) (by omega), ← digits, hds]
      exact hne

/-- The text of an integer of 64 bits is read as the integer. -/
theorem readInt64?_intChars {n : Int} (h : fitsInt64 n = true) :
    readInt64? (intChars n) = some n := by
  cases n with
  | ofNat n =>
    obtain ⟨d, ds, hds, hd⟩ := exists_cons_digits n
    have hread : readNat? (d :: ds) = some n := by
      rw [← hds]
      exact readNat?_digits n
    have hminus : d ≠ '-' := by
      rintro rfl
      exact absurd hd (by decide)
    have hplus : d ≠ '+' := by
      rintro rfl
      exact absurd hd (by decide)
    rw [intChars, hds, readInt64?]
    · rw [hread]
      exact Option.filter_some_pos h
    · intro rest heq
      exact hminus (List.cons.inj heq).1
    · intro rest heq
      exact hplus (List.cons.inj heq).1
  | negSucc n =>
    rw [intChars, readInt64?, readNat?_digits]
    exact Option.filter_some_pos h

theorem digits_inj {m n : Nat} (h : digits m = digits n) : m = n := by
  have hread := readNat?_digits m
  rw [h, readNat?_digits] at hread
  exact (Option.some.inj hread).symm

theorem digits_ne_minus (n : Nat) (cs : List Char) : digits n ≠ '-' :: cs := by
  intro heq
  obtain ⟨d, ds, hds, hd⟩ := exists_cons_digits n
  rw [hds] at heq
  rw [(List.cons.inj heq).1] at hd
  exact absurd hd (by decide)

/-- Different integers have different texts. -/
theorem intChars_inj {a b : Int} (h : intChars a = intChars b) : a = b := by
  cases a with
  | ofNat m =>
    cases b with
    | ofNat n => rw [digits_inj h]
    | negSucc n => exact absurd h (digits_ne_minus m _)
  | negSucc m =>
    cases b with
    | ofNat n => exact absurd h.symm (digits_ne_minus n _)
    | negSucc n => rw [Nat.succ.inj (digits_inj (List.cons.inj h).2)]

theorem intText_inj {a b : Int} (h : intText a = intText b) : a = b :=
  intChars_inj (String.ofList_inj.mp h)

end DualStore.Decimal

namespace DualStore.Json

open Decimal

/-- What follows a number in a text: it does not go on with the number. -/
def EndsNumber (cs : List Char) : Prop := Text.StopsAt Char.isDigit cs ∧ goesOn cs = false

theorem endsNumber_nil : EndsNumber [] := ⟨Text.stopsAt_nil, rfl⟩

theorem le_ofDigitChars (ds : List Char) (word : Nat) : word ≤ Nat.ofDigitChars 10 ds word := by
  rw [Nat.ofDigitChars_eq_ofDigitChars_zero]
  have hpos : 0 < 10 ^ ds.length := Nat.pow_pos (by decide)
  have hle : 1 * word ≤ 10 ^ ds.length * word := Nat.mul_le_mul_right word hpos
  omega

/-- Digits are absorbed as long as the number that they make fits into a word. -/
theorem absorb_of_le {ds : List Char} {word : Nat} (h : Nat.ofDigitChars 10 ds word ≤ wordMax) :
    absorb word ds = (Nat.ofDigitChars 10 ds word, []) := by
  induction ds generalizing word with
  | nil => rfl
  | cons d ds ih =>
    have hstep : 10 * word + (d.toNat - '0'.toNat) = word * 10 + digitValue d := by
      have hzero : '0'.toNat = 48 := rfl
      rw [digitValue, hzero]
      omega
    rw [Nat.ofDigitChars_cons, hstep] at h ⊢
    have hle := le_ofDigitChars ds (word * 10 + digitValue d)
    rw [absorb, if_neg (by omega)]
    exact ih h

/-- A number without sign is read up to where it ends. -/
theorem readMagnitude_digits {negative : Bool} {n : Nat} {rest : List Char} (h : n ≤ wordMax)
    (hrest : EndsNumber rest) :
    readMagnitude negative (digits n ++ rest) =
      if negative = false then some (.int n, rest)
      else if n = 0 ∨ 2 ^ 63 < n then
        some (.float (if negative then -(Float.ofNat n) else Float.ofNat n), rest)
      else some (.int (-(n : Int)), rest) := by
  have habsorb : absorb 0 (digits n) = (n, []) := by
    have hvalue : Nat.ofDigitChars 10 (digits n) 0 = n := Nat.ofDigitChars_ten_toDigits
    rw [absorb_of_le (by rw [hvalue]; exact h), hvalue]
  have hleading : ¬(digits n = [] ∨ ((digits n).head? = some '0' ∧ 1 < (digits n).length)) := by
    rintro (hnil | ⟨hhead, hlong⟩)
    · exact digits_ne_nil n hnil
    · by_cases hn : n = 0
      · rw [hn, digits, Nat.toDigits_zero] at hlong
        simp at hlong
      · exact head?_digits_ne_zero (Nat.pos_of_ne_zero hn) hhead
  unfold readMagnitude
  simp only [Text.takeWhile_append_stopsAt (all_isDigit_digits n) hrest.1,
    Text.dropWhile_append_stopsAt (all_isDigit_digits n) hrest.1, habsorb, if_neg hleading,
    hrest.2, and_self, if_true, Nat.pow_eq]

/-- **The text of an integer is read as the integer**, and what follows it is left. -/
theorem readNumber_intChars {n : Int} {rest : List Char} (hlow : -(2 ^ 63) ≤ n) (hhigh : n < 2 ^ 64)
    (hrest : EndsNumber rest) : readNumber (intChars n ++ rest) = some (.int n, rest) := by
  cases n with
  | ofNat n =>
    obtain ⟨d, ds, hds, hd⟩ := exists_cons_digits n
    have hword : n ≤ wordMax := by
      simp only [Int.ofNat_eq_natCast] at hhigh
      rw [wordMax]
      omega
    have hminus : d ≠ '-' := by
      rintro rfl
      exact absurd hd (by decide)
    have hread : readMagnitude false (digits n ++ rest) = some (.int n, rest) := by
      rw [readMagnitude_digits hword hrest, if_pos rfl]
    rw [hds] at hread
    rw [intChars, hds, List.cons_append, readNumber]
    · exact hread
    · intro after heq
      exact hminus (List.cons.inj heq).1
  | negSucc n =>
    have hsucc : n + 1 ≤ 2 ^ 63 := by
      simp only [Int.negSucc_eq] at hlow
      omega
    have hword : n + 1 ≤ wordMax := by
      rw [wordMax]
      omega
    have hint : -((n + 1 : Nat) : Int) = Int.negSucc n := by
      rw [Int.negSucc_eq]
      omega
    have hsmall : ¬(n + 1 = 0 ∨ 2 ^ 63 < n + 1) := by omega
    rw [intChars, List.cons_append, readNumber, readMagnitude_digits hword hrest,
      if_neg (by decide), if_neg hsmall, hint]

end DualStore.Json
