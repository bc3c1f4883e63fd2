import DualStore.Decimal.Shortest
import DualStore.Json.Numeral
import DualStore.Proofs.DoubleRounding

/-!
# Words and powers of ten

A number in a JSON text is a word times a power of ten. With a negative power the double is always
finite; with any other it is, as long as the number stays a little below the greatest double.

* `scaled_eq`, `scaledTen_eq`: quotients of natural numbers as rational numbers;
* `exists_size_powerOfTen`: the powers of ten as doubles;
* `exists_size_divideDown`: division by powers of ten;
* `IsRead`, `isRead_negative`, `isRead_of_le`: when word and power make a finite double.
-/

namespace DualStore.Decimal

/-! ## Quotients -/

theorem scaled_pos (n : Nat) (e : Int) : 0 < (scaled n e).2 := by
  cases e with
  | ofNat k => exact Nat.one_pos
  | negSucc k => exact Nat.two_pow_pos _

theorem scaled_eq (n : Nat) (e : Int) : ((scaled n e).1 : ℚ) = n * 2 ^ e * (scaled n e).2 := by
  cases e with
  | ofNat k => simp [scaled]
  | negSucc k =>
    simp only [scaled, Nat.pow_eq, zpow_negSucc]
    push_cast
    rw [mul_assoc, inv_mul_cancel₀ (by positivity), mul_one]

theorem scaledTen_pos (n : Nat) (e : Int) : 0 < (scaledTen n e).2 := by
  cases e with
  | ofNat k => exact Nat.one_pos
  | negSucc k => exact Nat.pow_pos (by decide)

theorem scaledTen_eq (n : Nat) (e : Int) :
    ((scaledTen n e).1 : ℚ) = n * 10 ^ e * (scaledTen n e).2 := by
  cases e with
  | ofNat k => simp [scaledTen]
  | negSucc k =>
    simp only [scaledTen, Nat.pow_eq, zpow_negSucc]
    push_cast
    rw [mul_assoc, inv_mul_cancel₀ (by positivity), mul_one]

theorem ratioLe_iff {a b : Nat × Nat} {p q : ℚ} (ha : 0 < a.2) (hb : 0 < b.2)
    (hp : (a.1 : ℚ) = p * a.2) (hq : (b.1 : ℚ) = q * b.2) : ratioLe a b = true ↔ p ≤ q := by
  have ha' : (0 : ℚ) < a.2 := by exact_mod_cast ha
  have hb' : (0 : ℚ) < b.2 := by exact_mod_cast hb
  have hcast : a.1 * b.2 ≤ b.1 * a.2 ↔ (a.1 * b.2 : ℚ) ≤ b.1 * a.2 := by
    constructor <;> intro h <;> exact_mod_cast h
  rw [ratioLe, decide_eq_true_eq, hcast, hp, hq]
  constructor
  · intro h
    refine le_of_mul_le_mul_right ?_ (mul_pos ha' hb')
    linarith
  · intro h
    have hscaled := mul_le_mul_of_nonneg_right h (mul_pos ha' hb').le
    linarith

theorem ratioLt_iff {a b : Nat × Nat} {p q : ℚ} (ha : 0 < a.2) (hb : 0 < b.2)
    (hp : (a.1 : ℚ) = p * a.2) (hq : (b.1 : ℚ) = q * b.2) : ratioLt a b = true ↔ p < q := by
  have hswap : ratioLt a b = !ratioLe b a := by
    rw [ratioLt, ratioLe, ← decide_not]
    exact decide_eq_decide.mpr Nat.not_le.symm
  rw [hswap, Bool.not_eq_true', Bool.eq_false_iff, ne_eq, ratioLe_iff hb ha hq hp, not_le]

/-! ## Powers of ten -/

def powerIsExact (k : Nat) : Bool :=
  match parts? (Float.ofScientific 1 false k).toModel.unpack with
  | some (m, e) => (scaled m e).1 = 10 ^ k * (scaled m e).2
  | none => false

theorem size?_of_powerIsExact {k : Nat} (h : powerIsExact k = true) :
    size? (Float.ofScientific 1 false k) = some (10 ^ k) := by
  rw [powerIsExact] at h
  cases hparts : parts? (Float.ofScientific 1 false k).toModel.unpack with
  | none => simp [hparts] at h
  | some parts =>
    obtain ⟨m, e⟩ := parts
    simp only [hparts, decide_eq_true_eq] at h
    have hpos : (0 : ℚ) < (scaled m e).2 := by exact_mod_cast scaled_pos m e
    have heq := scaled_eq m e
    have hexact : ((scaled m e).1 : ℚ) = 10 ^ k * (scaled m e).2 := by exact_mod_cast h
    rw [size?_of_parts hparts, mul_right_cancel₀ hpos.ne' (heq.symm.trans hexact)]

theorem greatestSize_eq : greatestSize = (((2 ^ 53 - 1) * 2 ^ 971 : Nat) : ℚ) := by
  have hpower : (2 ^ (971 : ℤ) : ℚ) = ((2 ^ 971 : Nat) : ℚ) := by
    rw [Nat.cast_pow]
    exact zpow_natCast 2 971
  have hmantissa : (2 ^ 53 - 1 : ℚ) = ((2 ^ 53 - 1 : Nat) : ℚ) := by norm_num
  rw [greatestSize, hpower, hmantissa, Nat.cast_mul]

/-- A power of ten of the table is a double that is hardly greater. -/
theorem exists_size_powerOfTen {k : Nat} (h : k ≤ 308) :
    ∃ q, size? (Float.ofScientific 1 false k) = some q ∧ q ≤ 10 ^ k * (1 + 2 ^ (-51 : ℤ))
      ∧ (k ≠ 0 → 2 ≤ q) := by
  have hten : k ≠ 0 → (10 : ℚ) ≤ 10 ^ k := by
    intro hk
    exact le_self_pow₀ (by norm_num) hk
  by_cases hsmall : k ≤ 22
  · have hall : ∀ k < 23, powerIsExact k = true := by decide +kernel
    refine ⟨10 ^ k, size?_of_powerIsExact (hall k (by omega)), ?_, fun hk => ?_⟩
    · norm_num
    · linarith [hten hk]
  · have hless : ((1 : Nat) * 10 ^ k : ℚ) < greatestSize := by
      have hnat : 10 ^ 308 < (2 ^ 53 - 1) * 2 ^ 971 := by decide +kernel
      have hpower : ∀ l, k ≤ l → 10 ^ k ≤ 10 ^ l := fun l => Nat.pow_le_pow_right (by decide)
      rw [greatestSize_eq, Nat.cast_one, one_mul]
      exact_mod_cast (hpower 308 h).trans_lt hnat
    obtain ⟨q, hq, hup, hdown⟩ := size?_ofScientific_of_great (w := 1) Nat.one_pos
      (.inr (by omega)) (by omega) hless
    rw [Nat.cast_one, one_mul] at hup hdown
    refine ⟨q, hq, hup, fun hk => ?_⟩
    norm_num at hdown
    linarith [hten hk]

end DualStore.Decimal

namespace DualStore.Json

open Decimal

/-- A word and a power of ten are read as a finite double. -/
def IsRead (word : Nat) (power : Int) : Prop :=
  ∃ y q, assemble word power = some y ∧ size? y = some q

/-- Division by a power of ten keeps a double finite. -/
theorem exists_size_divideDown {x : Float} {p : ℚ} (hx : size? x = some p) (steps : Nat)
    {power : Nat} (hpower : power ≠ 0) : ∃ q, size? (divideDown x steps power) = some q := by
  induction steps generalizing x p power with
  | zero => exact ⟨p, hx⟩
  | succ steps ih =>
    rw [divideDown]
    split
    · next hle =>
      obtain ⟨c, hc, _, htwo⟩ := exists_size_powerOfTen hle
      exact size?_div hx hc (htwo hpower)
    · next hgreat =>
      split
      · exact ⟨p, hx⟩
      · obtain ⟨c, hc, _, htwo⟩ := exists_size_powerOfTen (k := 308) le_rfl
        obtain ⟨r, hr⟩ := size?_div hx hc (htwo (by decide))
        exact ih hr (by omega)

/-- With a negative power every word is read. -/
theorem isRead_negative {word : Nat} (h : word ≤ wordMax) {power : Int} (hpower : power < 0) :
    IsRead word power := by
  obtain ⟨k, rfl⟩ := Int.eq_negSucc_of_lt_zero hpower
  obtain ⟨p, hp, _⟩ := size?_ofNat (w := word) (Nat.lt_of_le_of_lt h (by decide))
  obtain ⟨q, hq⟩ := exists_size_divideDown hp 8 (Nat.succ_ne_zero k)
  exact ⟨_, q, rfl, hq⟩

/-- A number that may be as great as the greatest double but for the last digits. -/
def safeSize : ℚ := (2 ^ 53 - 32) * 2 ^ (971 : ℤ)

/-- The rounding errors of a word and of a power of ten leave their product below the greatest
double. -/
theorem product_lt_greatestSize {word k : Nat} {p c : ℚ} (hc : 0 ≤ c)
    (hword : p ≤ word * (1 + 2 ^ (-49 : ℤ))) (hpower : c ≤ 10 ^ k * (1 + 2 ^ (-51 : ℤ)))
    (hle : (word * 10 ^ k : ℚ) ≤ safeSize) : p * c < greatestSize := by
  have hproduct : p * c ≤ word * (1 + 2 ^ (-49 : ℤ)) * (10 ^ k * (1 + 2 ^ (-51 : ℤ))) :=
    mul_le_mul hword hpower hc (by positivity)
  have hslack : safeSize * ((1 + 2 ^ (-49 : ℤ)) * (1 + 2 ^ (-51 : ℤ))) < greatestSize := by
    rw [safeSize, greatestSize, mul_right_comm]
    exact mul_lt_mul_of_pos_right (by norm_num) (by positivity)
  have hscaled := mul_le_mul_of_nonneg_right hle
    (by positivity : (0 : ℚ) ≤ (1 + 2 ^ (-49 : ℤ)) * (1 + 2 ^ (-51 : ℤ)))
  linarith

/-- Only the word zero can have a power beyond those of doubles. -/
theorem power_le_of_safeSize {word k : Nat} (hne : word ≠ 0)
    (hle : (word * 10 ^ k : ℚ) ≤ safeSize) : k ≤ 308 := by
  by_contra hk
  have hnat : (2 ^ 53 - 1) * 2 ^ 971 < 10 ^ 309 := by decide +kernel
  have hmost : 10 ^ 309 ≤ word * 10 ^ k := by
    have hpower : ∀ l, l ≤ k → 10 ^ l ≤ 10 ^ k := fun l => Nat.pow_le_pow_right (by decide)
    exact (hpower 309 (by omega)).trans (Nat.le_mul_of_pos_left _ (by omega))
  have hgreat : greatestSize < word * 10 ^ k := by
    rw [greatestSize_eq]
    exact_mod_cast hnat.trans_le hmost
  have hsafe : safeSize < greatestSize :=
    mul_lt_mul_of_pos_right (by norm_num) (by positivity)
  exact absurd (hle.trans_lt hsafe) hgreat.not_gt

/-- A word with a power that is not negative is read unless the number is too great. -/
theorem isRead_of_le {word k : Nat} (h : word ≤ wordMax) (hle : (word * 10 ^ k : ℚ) ≤ safeSize) :
    IsRead word k := by
  obtain ⟨p, hp, hword⟩ := size?_ofNat (w := word) (Nat.lt_of_le_of_lt h (by decide))
  have hcast : ((k : Nat) : Int) = .ofNat k := rfl
  rw [IsRead, hcast, assemble]
  dsimp only
  split
  · next hk =>
    obtain ⟨c, hc, hpower, _⟩ := exists_size_powerOfTen hk
    have hless := product_lt_greatestSize (size?_nonneg hc) hword hpower hle
    obtain ⟨r, hr, _⟩ := size?_mul hp hc hless
    rw [isInf_eq_false hr]
    exact ⟨_, r, rfl, hr⟩
  · next hk =>
    split
    · exact ⟨_, p, rfl, hp⟩
    · next hne => exact absurd (power_le_of_safeSize hne hle) hk

end DualStore.Json
