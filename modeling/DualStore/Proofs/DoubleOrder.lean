import DualStore.Document.Compare
import DualStore.Proofs.DoubleRounding

/-!
# Order of doubles

Finite doubles are compared as the numbers that they are, and a greater integer is never rounded to
a smaller double.

* `isFinite_iff_value?`: the finite doubles are those that are numbers;
* `compare_unpack`, `lt_iff`, `beq_iff`, `compareFloats_eq`: comparing two doubles;
* `roundedMantissa_mono`: cutting off and rounding keep the order of mantissas;
* `nearestWhole`, `nearestInt`: the whole number that an integer becomes as a double;
* `value?_ofInt`, `nearestInt_mono`: integers as doubles keep their order.
-/

namespace DualStore.Decimal

open Float.Model Float.Model.UnpackedFloat

theorem isFinite_iff_value? (x : Float) : isFinite x = true ↔ ∃ p, value? x = some p := by
  rw [isFinite_iff]
  simp only [size?_eq, Option.map_eq_some_iff]
  constructor
  · rintro ⟨_, p, hp, _⟩
    exact ⟨p, hp⟩
  · rintro ⟨p, hp⟩
    exact ⟨_, p, hp, rfl⟩

/-! ## Comparing -/

/-- A double with a greater exponent is greater, because its mantissa has all its digits. -/
theorem canonical_lt {m n : Nat} {e f : Int} (hm : Canonical m e) (hn : Canonical n f)
    (h : e < f) : (m * 2 ^ e : ℚ) < n * 2 ^ f := by
  have hleast := hm.least
  have hnormal : 2 ^ 52 ≤ n := by
    rcases hn.normal with hn | hn
    · exact hn
    · omega
  have hfits : (m : ℚ) < 2 ^ 53 := by exact_mod_cast hm.fits
  have hlong : (2 ^ 52 : ℚ) ≤ n := by exact_mod_cast hnormal
  have hpower : (2 ^ (e + 1) : ℚ) ≤ 2 ^ f := zpow_le_zpow_right₀ (by norm_num) (by omega)
  calc
    (m * 2 ^ e : ℚ) < 2 ^ 53 * 2 ^ e := mul_lt_mul_of_pos_right hfits (by positivity)
    _ = 2 ^ 52 * 2 ^ (e + 1) := by rw [zpow_add₀ (by norm_num)]; ring
    _ ≤ n * 2 ^ f := mul_le_mul hlong hpower (by positivity) (by positivity)

theorem compare_canonical {m n : Nat} {e f : Int} (hm : Canonical m e) (hn : Canonical n f) :
    (compare e f).then (compare m n) = compare (m * 2 ^ e : ℚ) (n * 2 ^ f) := by
  rcases lt_trichotomy e f with h | rfl | h
  · rw [compare_lt_iff_lt.mpr h, compare_lt_iff_lt.mpr (canonical_lt hm hn h)]
    rfl
  · have hpower : (0 : ℚ) < 2 ^ e := by positivity
    rw [compare_eq_iff_eq.mpr rfl, Ordering.eq_then]
    rcases lt_trichotomy m n with h | rfl | h
    · have hcast : (m : ℚ) < n := by exact_mod_cast h
      rw [compare_lt_iff_lt.mpr h, compare_lt_iff_lt.mpr (mul_lt_mul_of_pos_right hcast hpower)]
    · rw [compare_eq_iff_eq.mpr rfl, compare_eq_iff_eq.mpr rfl]
    · have hcast : (n : ℚ) < m := by exact_mod_cast h
      rw [compare_gt_iff_gt.mpr h, compare_gt_iff_gt.mpr (mul_lt_mul_of_pos_right hcast hpower)]
  · rw [compare_gt_iff_gt.mpr h, compare_gt_iff_gt.mpr (canonical_lt hn hm h)]
    rfl

theorem compare_neg_neg (p q : ℚ) : compare (-p) (-q) = (compare p q).swap := by
  rcases lt_trichotomy p q with h | rfl | h
  · rw [compare_lt_iff_lt.mpr h, compare_gt_iff_gt.mpr (neg_lt_neg h)]
    rfl
  · rw [compare_eq_iff_eq.mpr rfl, compare_eq_iff_eq.mpr rfl]
    rfl
  · rw [compare_gt_iff_gt.mpr h, compare_lt_iff_lt.mpr (neg_lt_neg h)]
    rfl

section Comparing

variable {x y : Float} {p q : ℚ}

/-- Doubles are compared as the numbers that they are. -/
theorem compare_unpack (hx : value? x = some p) (hy : value? y = some q) :
    x.toModel.unpack.compare y.toModel.unpack = some (compare p q) := by
  rcases canonical_value hx with ⟨s, hs, rfl⟩ | ⟨s, m, e, hm, hs, hcanonical, rfl⟩
  · rcases canonical_value hy with ⟨t, ht, rfl⟩ | ⟨t, n, f, hn, ht, -, rfl⟩
    · rw [hs, ht, compare_eq_iff_eq.mpr rfl]
      rfl
    · have hq : (0 : ℚ) < n * 2 ^ f := by positivity
      rw [hs, ht]
      cases t with
      | positive => rw [signed, compare_lt_iff_lt.mpr hq]; rfl
      | negative => rw [signed, compare_gt_iff_gt.mpr (neg_lt_zero.mpr hq)]; rfl
  · have hp : (0 : ℚ) < m * 2 ^ e := by positivity
    rcases canonical_value hy with ⟨t, ht, rfl⟩ | ⟨t, n, f, hn, ht, hcanonical', rfl⟩
    · rw [hs, ht]
      cases s with
      | positive => rw [signed, compare_gt_iff_gt.mpr hp]; rfl
      | negative => rw [signed, compare_lt_iff_lt.mpr (neg_lt_zero.mpr hp)]; rfl
    · have hq : (0 : ℚ) < n * 2 ^ f := by positivity
      have hcompare := compare_canonical hcanonical hcanonical'
      rw [hs, ht]
      cases s <;> cases t
      · rw [signed, signed, compare_neg_neg, ← hcompare]; rfl
      · rw [signed, signed, compare_lt_iff_lt.mpr (by linarith)]; rfl
      · rw [signed, signed, compare_gt_iff_gt.mpr (by linarith)]; rfl
      · rw [signed, signed, ← hcompare]; rfl

theorem lt_iff (hx : value? x = some p) (hy : value? y = some q) : x < y ↔ p < q := by
  have hlt : x < y ↔ (x.toModel.unpack.compare y.toModel.unpack == some .lt) = true :=
    decide_eq_true_iff
  rw [hlt, compare_unpack hx hy]
  simp [compare_lt_iff_lt]

theorem beq_iff (hx : value? x = some p) (hy : value? y = some q) : (x == y) = true ↔ p = q := by
  have hbeq : (x == y) = (x.toModel.unpack.compare y.toModel.unpack == some .eq) := rfl
  rw [hbeq, compare_unpack hx hy]
  simp

theorem compareFloats_eq (hx : value? x = some p) (hy : value? y = some q) :
    Document.compareFloats x y = some (compare p q) := by
  rw [Document.compareFloats]
  simp only [lt_iff hx hy, lt_iff hy hx, beq_iff hx hy]
  rcases lt_trichotomy p q with h | rfl | h
  · rw [if_pos h, compare_lt_iff_lt.mpr h]
  · simp
  · rw [if_neg h.asymm, if_pos h, compare_gt_iff_gt.mpr h]

end Comparing

/-! ## Rounding keeps the order -/

/-- The place of a mantissa that has been cut off: the digits kept, then the first digit lost, then
whether more was lost. -/
def grade (em : ExtendedMantissa) : Nat :=
  4 * em.mantissa + 2 * em.roundBit.toNat + em.stickyBit.toNat

theorem grade_shiftRightOne {a b : ExtendedMantissa} (h : grade a ≤ grade b) :
    grade a.shiftRightOne ≤ grade b.shiftRightOne := by
  obtain ⟨m, round, sticky⟩ := a
  obtain ⟨n, round', sticky'⟩ := b
  rcases Nat.mod_two_eq_zero_or_one m with hm | hm <;>
    rcases Nat.mod_two_eq_zero_or_one n with hn | hn <;>
    cases round <;> cases sticky <;> cases round' <;> cases sticky' <;>
    simp [grade, ExtendedMantissa.shiftRightOne, hm, hn] at h ⊢ <;> omega

theorem grade_shiftRight {a b : ExtendedMantissa} (h : grade a ≤ grade b) (k : Nat) :
    grade (a >>> k) ≤ grade (b >>> k) := by
  induction k with
  | zero => exact h
  | succ k ih => exact grade_shiftRightOne ih

theorem roundedMantissa_mono {a b : ExtendedMantissa} (h : grade a ≤ grade b) :
    a.roundedMantissa ≤ b.roundedMantissa := by
  obtain ⟨m, round, sticky⟩ := a
  obtain ⟨n, round', sticky'⟩ := b
  cases round <;> cases sticky <;> cases round' <;> cases sticky' <;>
    simp [grade, ExtendedMantissa.roundedMantissa, ExtendedMantissa.accuracy,
      Accuracy.roundToNearestEven] at h ⊢ <;> omega

/-! ## Integers as doubles -/

/-- The mantissa that a great word is rounded to. -/
def leadingDigits (w : Nat) : Nat :=
  (ExtendedMantissa.ofMantissaAndAccuracy (w <<< 53 * 10 ^ 0) .exact
    >>> (w.log2 + 1)).roundedMantissa

/-- The whole number that a natural number becomes as a double. -/
def nearestWhole (w : Nat) : Nat :=
  if w < 2 ^ 53 then w else leadingDigits w * 2 ^ (w.log2 - 52)

/-- The whole number that an integer becomes as a double. -/
def nearestInt : Int → Int
  | .ofNat n => nearestWhole n
  | .negSucc n => -nearestWhole (n + 1)

theorem le_log2 {w : Nat} (h : 2 ^ 53 ≤ w) : 53 ≤ w.log2 := (Nat.le_log2 (by omega)).mpr h

theorem log2_shifted {w : Nat} (hw : w ≠ 0) : (w <<< 53 * 10 ^ 0).log2 = w.log2 + 53 := by
  have hsucc : w.log2 + 53 + 1 = w.log2 + 1 + 53 := by omega
  have hpos : w * 2 ^ 53 ≠ 0 := Nat.mul_ne_zero hw (Nat.two_pow_pos 53).ne'
  rw [pow_zero, mul_one, Nat.shiftLeft_eq, Nat.log2_eq_iff hpos, hsucc, Nat.pow_add 2 w.log2,
    Nat.pow_add 2 (w.log2 + 1)]
  exact ⟨Nat.mul_le_mul_right _ (Nat.log2_self_le hw),
    Nat.mul_lt_mul_of_pos_right Nat.lt_log2_self (Nat.two_pow_pos 53)⟩

/-- How a great word is rounded. -/
theorem rounded_word {w : Nat} (h : 2 ^ 53 ≤ w) :
    ∃ em : ExtendedMantissa, em.roundedMantissa = leadingDigits w
      ∧ shiftToTargetExponent Format.binary64 (w <<< 53 * 10 ^ 0) (-53 + 0) .exact
          = (em, ((w.log2 - 52 : Nat) : Int))
      ∧ Rounded (w <<< 53 * 10 ^ 0) (-53 + 0) (leadingDigits w) ((w.log2 - 52 : Nat) : Int) := by
  have hlong := le_log2 h
  have hlog := log2_shifted (w := w) (by omega)
  have hamount : (roundedExponent (w <<< 53 * 10 ^ 0) (-53 + 0) - (-53 + 0)).toNat
      = w.log2 + 1 := by
    rw [roundedExponent, hlog]
    omega
  have hexponent : (-53 + 0 + ((w.log2 + 1 : Nat) : Int)) = ((w.log2 - 52 : Nat) : Int) := by omega
  have hshift : shiftToTargetExponent Format.binary64 (w <<< 53 * 10 ^ 0) (-53 + 0) .exact
      = (ExtendedMantissa.ofMantissaAndAccuracy (w <<< 53 * 10 ^ 0) .exact >>> (w.log2 + 1),
        ((w.log2 - 52 : Nat) : Int)) := by
    rw [shiftToTargetExponent, targetExponent_eq, shiftToExponent, hamount, hexponent]
  obtain ⟨em, t, hsame, hrounded⟩ :=
    rounded_shift (e := -53 + 0) (.inl (by rw [hlog]; omega)) .exact
  obtain ⟨rfl, rfl⟩ := Prod.mk.inj (hsame.symm.trans hshift)
  exact ⟨_, rfl, hshift, hrounded⟩

theorem leadingDigits_range {w : Nat} (h : 2 ^ 53 ≤ w) :
    2 ^ 52 ≤ leadingDigits w ∧ leadingDigits w ≤ 2 ^ 53 := by
  obtain ⟨em, -, -, hrounded⟩ := rounded_word h
  have hnormal := hrounded.normal
  exact ⟨by omega, hrounded.fits⟩

theorem value?_ofNat {w : Nat} (h : w < 2 ^ 64) :
    value? (Float.ofNat w) = some (nearestWhole w : ℚ) := by
  by_cases hsmall : w < 2 ^ 53
  · rw [value?_ofNat_of_lt hsmall, nearestWhole, if_pos hsmall]
  · obtain ⟨em, hem, hshift, hrounded⟩ := rounded_word (Nat.not_lt.mp hsmall)
    have hscientific : Float.ofNat w = Float.ofScientific w false 0 := rfl
    have hless : ((w <<< 53 * 10 ^ 0 : Nat) * 2 ^ (-53 + 0 : ℤ) : ℚ) < greatestSize := by
      have hword : (w : ℚ) < 2 ^ (64 : ℤ) := by exact_mod_cast h
      rw [shifted_eq, pow_zero, mul_one]
      exact hword.trans (two_pow_lt_greatestSize (by norm_num))
    rw [← hem] at hrounded
    have hnumber := number?_roundWithAccuracy hshift hrounded hless .positive
    rw [hem] at hnumber
    rw [hscientific, ofScientific_of_great (by omega) (.inl (by omega)) (by decide), nearestWhole,
      if_neg hsmall]
    push_cast
    exact hnumber

/-- Words of the same length are cut off at the same place. -/
theorem leadingDigits_mono {v w : Nat} (h : v ≤ w) (hlog : v.log2 = w.log2) :
    leadingDigits v ≤ leadingDigits w := by
  rw [leadingDigits, leadingDigits, hlog]
  apply roundedMantissa_mono
  apply grade_shiftRight
  simp only [grade, ExtendedMantissa.ofMantissaAndAccuracy, pow_zero, mul_one, Nat.shiftLeft_eq]
  omega

/-- A great word is not rounded below a power of two that it reaches. -/
theorem two_pow_le_nearest {w n : Nat} (hw : 2 ^ 53 ≤ w) (h : n ≤ w.log2) :
    2 ^ n ≤ leadingDigits w * 2 ^ (w.log2 - 52) := by
  have hlong := le_log2 hw
  calc
    2 ^ n ≤ 2 ^ (52 + (w.log2 - 52)) := Nat.pow_le_pow_right (by decide) (by omega)
    _ = 2 ^ 52 * 2 ^ (w.log2 - 52) := Nat.pow_add ..
    _ ≤ leadingDigits w * 2 ^ (w.log2 - 52) :=
      Nat.mul_le_mul_right _ (leadingDigits_range hw).1

theorem nearestWhole_mono {v w : Nat} (h : v ≤ w) : nearestWhole v ≤ nearestWhole w := by
  rw [nearestWhole, nearestWhole]
  by_cases hw : w < 2 ^ 53
  · rw [if_pos hw, if_pos (by omega)]
    exact h
  · rw [Nat.not_lt] at hw
    rw [if_neg (Nat.not_lt.mpr hw)]
    by_cases hv : v < 2 ^ 53
    · rw [if_pos hv]
      exact hv.le.trans (two_pow_le_nearest hw (le_log2 hw))
    · have hvlong := le_log2 (Nat.not_lt.mp hv)
      have hlog : v.log2 ≤ w.log2 :=
        (Nat.le_log2 (by omega)).mpr ((Nat.log2_self_le (by omega)).trans h)
      rw [if_neg hv]
      rcases Nat.lt_or_eq_of_le hlog with hless | hsame
      · -- A word that is shorter in binary is at most rounded up to the next power of two.
        calc
          leadingDigits v * 2 ^ (v.log2 - 52) ≤ 2 ^ 53 * 2 ^ (v.log2 - 52) :=
            Nat.mul_le_mul_right _ (leadingDigits_range (by omega)).2
          _ = 2 ^ (53 + (v.log2 - 52)) := (Nat.pow_add ..).symm
          _ ≤ leadingDigits w * 2 ^ (w.log2 - 52) := two_pow_le_nearest hw (by omega)
      · rw [hsame]
        exact Nat.mul_le_mul_right _ (leadingDigits_mono h hsame)

/-- An integer of 64 bits, with or without sign, as a double. -/
theorem value?_ofInt {n : Int} (hleast : -2 ^ 63 ≤ n) (hless : n < 2 ^ 64) :
    value? (Float.ofInt n) = some (nearestInt n : ℚ) := by
  cases n with
  | ofNat n =>
    have hn : n < 2 ^ 64 := Int.ofNat_lt.mp hless
    rw [Float.ofInt, value?_ofNat hn, nearestInt, Int.cast_natCast]
  | negSucc n =>
    have hn : n + 1 < 2 ^ 64 := by omega
    have hneg : Float.ofInt (.negSucc n) = -Float.ofNat (n + 1) := rfl
    rw [hneg, value?_neg (value?_ofNat hn), nearestInt, Int.cast_neg, Int.cast_natCast]

/-- A greater integer is not rounded to a smaller double. -/
theorem nearestInt_mono {m n : Int} (h : m ≤ n) : nearestInt m ≤ nearestInt n := by
  cases m with
  | ofNat m =>
    cases n with
    | ofNat n => exact Int.ofNat_le.mpr (nearestWhole_mono (Int.ofNat_le.mp h))
    | negSucc n =>
      have hneg := Int.negSucc_lt_zero n
      exact absurd h (Int.not_le.mpr (hneg.trans_le (Int.natCast_nonneg m)))
  | negSucc m =>
    cases n with
    | ofNat n =>
      simp only [nearestInt]
      omega
    | negSucc n =>
      have hless := nearestWhole_mono (v := n + 1) (w := m + 1) (by omega)
      simp only [nearestInt]
      omega

end DualStore.Decimal
