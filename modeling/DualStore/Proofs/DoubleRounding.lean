import Mathlib
import DualStore.Decimal.Binary

/-!
# Rounding of doubles

How far a product or a quotient of doubles can be from the exact one, as far as it is needed to show
that nothing overflows. Magnitudes are rational numbers; a bound allows for a whole unit in the last
place.

* `magnitude?`, `size?`: the magnitude of a finite number, and of a double; `number?`, `value?`: the
  number with its sign;
* `Canonical`: the mantissas and exponents that a double has;
* `Rounded`, `rounded_shift`: what rounding does to a mantissa and an exponent;
* `number?_roundWithAccuracy`, `magnitude?_roundWithAccuracy`: a rounded number is finite and hardly
  greater than the exact one;
* `unpack_round_exact`, `value?_ofNat_of_lt`: numbers that are not rounded;
* `size?_mul`, `size?_div`, `size?_neg`, `size?_ofNat`, `size?_ofScientific_of_great`: the
  operations;
* `isFinite_iff`, `size_le_greatestSize`: the finite doubles.
-/

namespace DualStore.Decimal

open Float.Model Float.Model.UnpackedFloat

/-- The magnitude of a finite number. -/
def magnitude? : UnpackedFloat → Option ℚ
  | .zero _ => some 0
  | .finite _ m e _ => some (m * 2 ^ e)
  | _ => none

def signed : Sign → ℚ → ℚ
  | .positive, q => q
  | .negative, q => -q

def number? : UnpackedFloat → Option ℚ
  | .zero _ => some 0
  | .finite s m e _ => some (signed s (m * 2 ^ e))
  | _ => none

/-- The magnitude of a double. -/
def size? (x : Float) : Option ℚ := magnitude? x.toModel.unpack

/-- The number that a finite double is. -/
def value? (x : Float) : Option ℚ := number? x.toModel.unpack

/-- The magnitude of the greatest double; what is below it stays finite when it is rounded. -/
def greatestSize : ℚ := (2 ^ 53 - 1) * 2 ^ (971 : ℤ)

/-- The mantissas and exponents of doubles. -/
structure Canonical (m : Nat) (e : Int) : Prop where
  fits : m < 2 ^ 53
  least : -1074 ≤ e
  greatest : e ≤ 971
  normal : 2 ^ 52 ≤ m ∨ e = -1074

/-! ## Packing -/

theorem sign_packComponents (s : Sign) (e : BitVec 11) (m : BitVec 52) :
    Sign.ofBitVec (unpackSign (packComponents Format.binary64 s e m)) = s := by
  simp only [unpackSign, packComponents, BitVec.extractLsb]
  rw [BitVec.extractLsb'_append_eq_of_le (by omega),
    BitVec.extractLsb'_append_eq_of_le (by omega)]
  cases s <;> rfl

theorem toNat_ofNat_exponent {n : Nat} (h : n < 2047) : (BitVec.ofNat 11 n).toNat = n := by
  rw [BitVec.toNat_ofNat, Nat.mod_eq_of_lt (by omega)]

theorem unpack_packComponents_normal {s : Sign} {m n : Nat} (hleast : 2 ^ 52 ≤ m)
    (hfits : m < 2 ^ 53) (hpos : 0 < n) (hn : n < 2047) :
    UnpackedFloat.unpack Format.binary64
        (packComponents Format.binary64 s (BitVec.ofNat 11 n) (BitVec.ofNat 52 m))
      = .finite s m (n - 1075) (by omega) := by
  have hexponent := toNat_ofNat_exponent hn
  have hfull : BitVec.ofNat 11 n ≠ -1#11 := by
    intro h
    rw [h] at hexponent
    have hall : (-1#11).toNat = 2047 := rfl
    omega
  have hzero : BitVec.ofNat 11 n ≠ 0#11 := by
    intro h
    rw [h] at hexponent
    have hnone : (0#11).toNat = 0 := rfl
    omega
  have hmantissa : (1#1 ++ BitVec.ofNat 52 m).toNat = m := by
    have hone : (1#1).toNat <<< 52 = 2 ^ 52 := rfl
    have hrest : (BitVec.ofNat 52 m).toNat = m - 2 ^ 52 := by
      rw [BitVec.toNat_ofNat]
      omega
    rw [BitVec.toNat_append, ← Nat.shiftLeft_add_eq_or_of_lt (by omega), hone, hrest]
    omega
  have hbias : ((Format.exponentBias Format.binary64 : Nat) : Int)
      + ((Format.mantissaBitsWithoutImplicit Format.binary64 : Nat) : Int) = 1075 := rfl
  rw [UnpackedFloat.unpack]
  simp only [unpackExponent_packComponents, unpackMantissa_packComponents, sign_packComponents,
    if_neg hfull, if_neg hzero, hmantissa, hexponent, hbias]

theorem unpack_packComponents_small {s : Sign} {m : Nat} (hpos : 0 < m) (hm : m < 2 ^ 52) :
    UnpackedFloat.unpack Format.binary64
        (packComponents Format.binary64 s 0#11 (BitVec.ofNat 52 m))
      = .finite s m (-1074) hpos := by
  have hmantissa : (BitVec.ofNat 52 m).toNat = m := by
    rw [BitVec.toNat_ofNat, Nat.mod_eq_of_lt hm]
  have hne : BitVec.ofNat 52 m ≠ 0#52 := by
    intro h
    rw [h] at hmantissa
    have hnone : (0#52).toNat = 0 := rfl
    omega
  have hfull : 0#11 ≠ -1#11 := by decide
  rw [UnpackedFloat.unpack]
  simp only [unpackExponent_packComponents, unpackMantissa_packComponents, sign_packComponents,
    if_neg hfull, dif_neg hne, hmantissa]
  rfl

/-- A number with a canonical mantissa and exponent is kept as it is. -/
theorem unpack_pack {s : Sign} {m : Nat} {e : Int} {hpos : 0 < m} (h : Canonical m e) :
    (Float.Model.pack (.finite s m e hpos)).unpack = .finite s m e hpos := by
  obtain ⟨hfits, hleast, hgreatest, hnormal⟩ := h
  have hbias : e + (Format.exponentBias Format.binary64 : Nat)
      + (Format.mantissaBitsWithoutImplicit Format.binary64 : Nat) = e + 1075 := by
    have hsum : ((Format.exponentBias Format.binary64 : Nat) : Int)
        + ((Format.mantissaBitsWithoutImplicit Format.binary64 : Nat) : Int) = 1075 := rfl
    omega
  have hroom : ¬2 ^ 11 ≤ (e + 1075).toNat + 1 := by omega
  rw [Float.Model.unpack, Float.Model.pack, UInt64.toBitVec_ofBitVec, UnpackedFloat.pack]
  simp only [hbias]
  rw [if_neg hroom]
  by_cases hm : 2 ^ 52 ≤ m
  · have hlog : m.log2 + 1 = Format.binary64.mantissaBits := by
      rw [(Nat.log2_eq_iff (by omega)).mpr ⟨hm, hfits⟩]
      rfl
    have hexponent : ((e + 1075).toNat : Int) - 1075 = e := by omega
    rw [if_pos hlog, unpack_packComponents_normal hm hfits (by omega) (by omega)]
    simp only [hexponent]
  · have hlog : ¬m.log2 + 1 = Format.binary64.mantissaBits := by
      have hlt : m.log2 < 52 := (Nat.log2_lt (by omega)).mpr (by omega)
      have hbits : Format.binary64.mantissaBits = 53 := rfl
      omega
    obtain rfl : e = -1074 := hnormal.resolve_left hm
    rw [if_neg hlog, unpack_packComponents_small hpos (by omega)]

/-- The mantissa and the exponent of a double are canonical. -/
theorem canonical_of_unpack {x : Float.Model} {s : Sign} {m : Nat} {e : Int} {hpos : 0 < m}
    (h : x.unpack = .finite s m e hpos) : Canonical m e := by
  have hbias : ((Format.exponentBias Format.binary64 : Nat) : Int)
      + ((Format.mantissaBitsWithoutImplicit Format.binary64 : Nat) : Int) = 1075 := rfl
  have hmantissa : (@unpackMantissa Format.binary64 x.toBits.toBitVec).toNat < 2 ^ 52 :=
    (@unpackMantissa Format.binary64 x.toBits.toBitVec).isLt
  have hexponent : (@unpackExponent Format.binary64 x.toBits.toBitVec).toNat < 2 ^ 11 :=
    (@unpackExponent Format.binary64 x.toBits.toBitVec).isLt
  rw [Float.Model.unpack, UnpackedFloat.unpack] at h
  simp only [hbias] at h
  split at h
  · split at h <;> cases h
  · next hfull =>
    have hless : (@unpackExponent Format.binary64 x.toBits.toBitVec).toNat ≠ 2047 := by
      intro heq
      exact hfull (BitVec.eq_of_toNat_eq heq)
    split at h
    · next hzero =>
      have hnone : (@unpackExponent Format.binary64 x.toBits.toBitVec).toNat = 0 := by
        rw [hzero]
        rfl
      split at h
      · cases h
      · cases h
        exact ⟨by omega, by omega, by omega, .inr (by omega)⟩
    · next hzero =>
      have hsome : (@unpackExponent Format.binary64 x.toBits.toBitVec).toNat ≠ 0 := by
        intro heq
        exact hzero (BitVec.eq_of_toNat_eq heq)
      have hone : (1#1).toNat <<< 52 = 2 ^ 52 := rfl
      cases h
      rw [BitVec.toNat_append, ← Nat.shiftLeft_add_eq_or_of_lt hmantissa, hone]
      exact ⟨by omega, by omega, by omega, .inl (by omega)⟩

/-! ## Rounding -/

/-- The exponent that a number is rounded to. -/
def roundedExponent (m : Nat) (e : Int) : Int := max (m.log2 + e - 52) (-1074)

theorem targetExponent_eq (m : Nat) (e : Int) :
    Format.binary64.targetExponent (totalExponent m e) = roundedExponent m e := by
  have hbits : Format.binary64.mantissaBits = 53 := rfl
  have hleast : Format.binary64.minExponent = -1074 := rfl
  rw [Format.targetExponent, totalExponent, roundedExponent, hbits, hleast]
  congr 1
  omega

theorem mantissa_shiftRight (em : ExtendedMantissa) (k : Nat) :
    (em >>> k).mantissa = em.mantissa / 2 ^ k := by
  induction k generalizing em with
  | zero => exact (Nat.div_one em.mantissa).symm
  | succ k ih =>
    have hstep : (em >>> (k + 1)).mantissa = (em >>> k).mantissa / 2 := rfl
    rw [hstep, ih, Nat.div_div_eq_div_mul, ← Nat.pow_succ]

theorem mantissa_ofMantissaAndAccuracy (m : Nat) (a : Accuracy) :
    (ExtendedMantissa.ofMantissaAndAccuracy m a).mantissa = m := by
  cases a with
  | exact => rfl
  | inexact o => cases o <;> rfl

theorem roundedMantissa_bounds (em : ExtendedMantissa) :
    em.mantissa ≤ em.roundedMantissa ∧ em.roundedMantissa ≤ em.mantissa + 1 := by
  obtain ⟨m, round, sticky⟩ := em
  cases round <;> cases sticky <;>
    simp [ExtendedMantissa.roundedMantissa, ExtendedMantissa.accuracy,
      Accuracy.roundToNearestEven]
  omega

theorem div_two_pow_lt {m k : Nat} (h : m.log2 ≤ 52 + k) : m / 2 ^ k < 2 ^ 53 := by
  have hpower : 2 ^ (m.log2 + 1) ≤ 2 ^ (53 + k) := Nat.pow_le_pow_right (by decide) (by omega)
  rw [Nat.div_lt_iff_lt_mul (Nat.two_pow_pos k), ← Nat.pow_add]
  exact Nat.lt_of_lt_of_le Nat.lt_log2_self hpower

theorem le_div_two_pow {m k : Nat} (h : m.log2 = 52 + k) : 2 ^ 52 ≤ m / 2 ^ k := by
  have hne : m ≠ 0 := by
    rintro rfl
    rw [Nat.log2_zero] at h
    omega
  rw [Nat.le_div_iff_mul_le (Nat.two_pow_pos k), ← Nat.pow_add, ← h]
  exact Nat.log2_self_le hne

/-- A mantissa that is cut off and rounded up gains at most a unit in the last place. -/
theorem rounded_up_le {m k r : Nat} (e : Int) (h : r ≤ m / 2 ^ k + 1) :
    (r * 2 ^ (e + k) : ℚ) ≤ m * 2 ^ e + 2 ^ (e + k) := by
  have hscaled : r * 2 ^ k ≤ m + 2 ^ k := by
    have hfloor := Nat.div_mul_le_self m (2 ^ k)
    have hmul := Nat.mul_le_mul_right (2 ^ k) h
    rw [Nat.add_mul, Nat.one_mul] at hmul
    omega
  have hcast : (r * 2 ^ k : ℚ) ≤ m + 2 ^ k := by exact_mod_cast hscaled
  have hnonneg : (0 : ℚ) ≤ 2 ^ e := zpow_nonneg (by norm_num) e
  have hproduct := mul_le_mul_of_nonneg_right hcast hnonneg
  rw [zpow_add₀ (by norm_num), zpow_natCast]
  linarith

/-- A mantissa that is cut off loses less than a unit in the last place. -/
theorem le_rounded_down {m k r : Nat} (e : Int) (h : m / 2 ^ k ≤ r) :
    (m * 2 ^ e : ℚ) ≤ r * 2 ^ (e + k) + 2 ^ (e + k) := by
  have hscaled : m ≤ r * 2 ^ k + 2 ^ k := by
    have hfloor := Nat.lt_div_mul_add (a := m) (Nat.two_pow_pos k)
    have hmul := Nat.mul_le_mul_right (2 ^ k) h
    omega
  have hcast : (m : ℚ) ≤ r * 2 ^ k + 2 ^ k := by exact_mod_cast hscaled
  have hnonneg : (0 : ℚ) ≤ 2 ^ e := zpow_nonneg (by norm_num) e
  have hproduct := mul_le_mul_of_nonneg_right hcast hnonneg
  rw [zpow_add₀ (by norm_num), zpow_natCast]
  linarith

theorem two_pow_log2_le {m : Nat} (hm : m ≠ 0) (e : Int) :
    (2 ^ (m.log2 + e) : ℚ) ≤ m * 2 ^ e := by
  have hle : (2 ^ m.log2 : ℚ) ≤ m := by exact_mod_cast Nat.log2_self_le hm
  have hnonneg : (0 : ℚ) ≤ 2 ^ e := zpow_nonneg (by norm_num) e
  rw [zpow_add₀ (by norm_num), zpow_natCast]
  exact mul_le_mul_of_nonneg_right hle hnonneg

/-- The mantissa `r` and the exponent `t` come from rounding `m * 2 ^ e`, before a mantissa that has
become too long is halved. -/
structure Rounded (m : Nat) (e : Int) (r : Nat) (t : Int) : Prop where
  fits : r ≤ 2 ^ 53
  least : -1074 ≤ t
  normal : 2 ^ 52 ≤ r ∨ t = -1074
  near : (r * 2 ^ t : ℚ) ≤ m * 2 ^ e + 2 ^ t ∧ (m * 2 ^ e : ℚ) ≤ r * 2 ^ t + 2 ^ t
  fine : t = -1074 ∨ (2 ^ (t + 52) : ℚ) ≤ m * 2 ^ e

/-- The first of the two steps of rounding. -/
theorem rounded_shift {m : Nat} {e : Int} (h : 52 ≤ m.log2 ∨ e ≤ -1074) (a : Accuracy) :
    ∃ em t, shiftToTargetExponent Format.binary64 m e a = (em, t)
      ∧ Rounded m e em.roundedMantissa t := by
  obtain ⟨k, hk⟩ : ∃ k : Nat, roundedExponent m e = e + k := by
    refine ⟨(roundedExponent m e - e).toNat, ?_⟩
    rw [roundedExponent]
    omega
  have hshift : shiftToTargetExponent Format.binary64 m e a
      = (ExtendedMantissa.ofMantissaAndAccuracy m a >>> k, e + k) := by
    have hamount : (roundedExponent m e - e).toNat = k := by omega
    rw [shiftToTargetExponent, targetExponent_eq, shiftToExponent, hamount]
  have hbounds := roundedMantissa_bounds (ExtendedMantissa.ofMantissaAndAccuracy m a >>> k)
  rw [mantissa_shiftRight, mantissa_ofMantissaAndAccuracy] at hbounds
  -- Unless the exponent is the least one, exactly 53 bits are kept.
  have hexponent : -1074 ≤ e + k ∧ m.log2 ≤ 52 + k
      ∧ (e + k = -1074 ∨ m ≠ 0 ∧ m.log2 = 52 + k) := by
    rw [roundedExponent] at hk
    have hzero : m = 0 → m.log2 = 0 := by
      rintro rfl
      exact Nat.log2_zero
    omega
  obtain ⟨hleast, hlog, hexact⟩ := hexponent
  refine ⟨_, _, hshift, ⟨?_, hleast, ?_,
    ⟨rounded_up_le e hbounds.2, le_rounded_down e hbounds.1⟩, ?_⟩⟩
  · have hlt := div_two_pow_lt hlog
    omega
  · rcases hexact with hmin | ⟨_, hlog⟩
    · exact .inr hmin
    · exact .inl ((le_div_two_pow hlog).trans hbounds.1)
  · rcases hexact with hmin | ⟨hne, hlog⟩
    · exact .inl hmin
    · have hsum : e + k + 52 = m.log2 + e := by omega
      rw [hsum]
      exact .inr (two_pow_log2_le hne e)

/-- A mantissa that fits is not shifted. -/
theorem shiftToTargetExponent_of_lt {r : Nat} {t : Int} (hr : r < 2 ^ 53) (ht : -1074 ≤ t) :
    shiftToTargetExponent Format.binary64 r t .exact = (⟨r, false, false⟩, t) := by
  have hlog : r.log2 ≤ 52 := by
    by_cases hzero : r = 0
    · rw [hzero, Nat.log2_zero]
      omega
    · have hlt := (Nat.log2_lt hzero).mpr hr
      omega
  have hamount : (roundedExponent r t - t).toNat = 0 := by
    rw [roundedExponent]
    omega
  rw [shiftToTargetExponent, targetExponent_eq, shiftToExponent, hamount]
  exact congrArg _ (Int.add_zero t)

/-- A mantissa that has become too long is halved. -/
theorem shiftToTargetExponent_overlong {t : Int} (ht : -1074 ≤ t) :
    shiftToTargetExponent Format.binary64 (2 ^ 53) t .exact = (⟨2 ^ 52, false, false⟩, t + 1) := by
  have hamount : (roundedExponent (2 ^ 53) t - t).toNat = 1 := by
    rw [roundedExponent, Nat.log2_two_pow]
    omega
  rw [shiftToTargetExponent, targetExponent_eq, shiftToExponent, hamount]
  rfl

theorem greatestSize_lt : greatestSize < 2 ^ (1024 : ℤ) := by
  have hsum : (1024 : ℤ) = (53 : ℕ) + 971 := rfl
  rw [greatestSize, hsum, zpow_add₀ (by norm_num), zpow_natCast]
  exact mul_lt_mul_of_pos_right (by norm_num) (by positivity)

/-- The last place of a rounded number is small, absolutely or against the number itself. -/
theorem Rounded.unit_le {m r : Nat} {e t : Int} (h : Rounded m e r t) :
    (2 ^ t : ℚ) ≤ m * 2 ^ e * 2 ^ (-52 : ℤ) + 2 ^ (-1074 : ℤ) := by
  have hnonneg : (0 : ℚ) ≤ m * 2 ^ e := by positivity
  rcases h.fine with hmin | hfine
  · rw [hmin]
    have hpositive : (0 : ℚ) ≤ m * 2 ^ e * 2 ^ (-52 : ℤ) := by positivity
    linarith
  · have hsplit : (2 ^ t : ℚ) = 2 ^ (t + 52) * 2 ^ (-52 : ℤ) := by
      rw [← zpow_add₀ (by norm_num)]
      congr 1
      omega
    have hpositive : (0 : ℚ) ≤ 2 ^ (-52 : ℤ) := by positivity
    have hleast : (0 : ℚ) ≤ 2 ^ (-1074 : ℤ) := by positivity
    rw [hsplit]
    linarith [mul_le_mul_of_nonneg_right hfine hpositive]

/-- A number below the limit is rounded to an exponent that a double has. -/
theorem Rounded.exponent_le {m r : Nat} {e t : Int} (h : Rounded m e r t)
    (hv : (m * 2 ^ e : ℚ) < greatestSize) : t ≤ 971 := by
  rcases h.fine with hmin | hfine
  · omega
  · have hlt : (2 ^ (t + 52) : ℚ) < 2 ^ (1024 : ℤ) :=
      lt_of_le_of_lt hfine (hv.trans greatestSize_lt)
    have hexponent := (zpow_lt_zpow_iff_right₀ (by norm_num : (1 : ℚ) < 2)).mp hlt
    omega

/-- A mantissa that has become too long leaves room for a greater exponent. -/
theorem Rounded.exponent_lt {m : Nat} {e t : Int} (h : Rounded m e (2 ^ 53) t)
    (hv : (m * 2 ^ e : ℚ) < greatestSize) : t < 971 := by
  have hnear : ((2 ^ 53 - 1) * 2 ^ t : ℚ) ≤ m * 2 ^ e := by
    have hnear := h.near.1
    push_cast at hnear
    linarith
  have hlt : ((2 ^ 53 - 1) * 2 ^ t : ℚ) < (2 ^ 53 - 1) * 2 ^ (971 : ℤ) := lt_of_le_of_lt hnear hv
  have hpower : (2 ^ t : ℚ) < 2 ^ (971 : ℤ) := lt_of_mul_lt_mul_left hlt (by norm_num)
  exact (zpow_lt_zpow_iff_right₀ (by norm_num : (1 : ℚ) < 2)).mp hpower

theorem abs_signed {q : ℚ} (h : 0 ≤ q) (s : Sign) : |signed s q| = q := by
  cases s with
  | positive => exact abs_of_nonneg h
  | negative => rw [signed, abs_neg, abs_of_nonneg h]

theorem magnitude?_eq (u : UnpackedFloat) : magnitude? u = (number? u).map (|·|) := by
  cases u with
  | finite s m e hpos =>
    rw [magnitude?, number?, Option.map_some, abs_signed (by positivity)]
  | zero s => rw [magnitude?, number?, Option.map_some, abs_zero]
  | _ => rfl

theorem size?_eq (x : Float) : size? x = (value? x).map (|·|) := magnitude?_eq x.toModel.unpack

/-- Below the greatest double the rounded mantissa and its exponent are kept as a number; a mantissa
that has become too long is halved. -/
theorem number?_roundWithAccuracy {m : Nat} {e t : Int} {a : Accuracy} {em : ExtendedMantissa}
    (hshift : shiftToTargetExponent Format.binary64 m e a = (em, t))
    (hrounded : Rounded m e em.roundedMantissa t) (hv : (m * 2 ^ e : ℚ) < greatestSize) (s : Sign) :
    number? (Float.Model.pack (roundWithAccuracy Format.binary64 s m e a)).unpack
      = some (signed s (em.roundedMantissa * 2 ^ t)) := by
  have hgreatest := hrounded.exponent_le hv
  have hfits := hrounded.fits
  rw [roundWithAccuracy, hshift]
  dsimp only
  by_cases hlong : em.roundedMantissa < 2 ^ 53
  · rw [shiftToTargetExponent_of_lt hlong hrounded.least]
    dsimp only
    split
    · next hzero =>
      rw [hzero]
      have hkept : (Float.Model.pack (.zero s)).unpack = .zero s := by cases s <;> rfl
      have hsigned : signed s 0 = 0 := by cases s <;> simp [signed]
      rw [hkept, number?, Nat.cast_zero, zero_mul, hsigned]
    · rw [unpack_pack ⟨hlong, hrounded.least, hgreatest, hrounded.normal⟩, number?]
  · obtain hlength : em.roundedMantissa = 2 ^ 53 := by omega
    rw [hlength] at hrounded ⊢
    have hless := hrounded.exponent_lt hv
    have hleast := hrounded.least
    rw [shiftToTargetExponent_overlong hleast]
    dsimp only
    rw [dif_neg (by norm_num), unpack_pack ⟨by norm_num, by omega, by omega, .inl le_rfl⟩,
      number?, zpow_add₀ (by norm_num)]
    push_cast
    congr 2
    ring

/-- Zeros are cut off a mantissa without a trace. -/
theorem shiftRight_exact (m k : Nat) :
    ExtendedMantissa.ofMantissaAndAccuracy (m * 2 ^ k) .exact >>> k
      = ExtendedMantissa.ofMantissaAndAccuracy m .exact := by
  induction k generalizing m with
  | zero => rw [pow_zero, mul_one]; rfl
  | succ k ih =>
    have hstep : ∀ em : ExtendedMantissa, em >>> (k + 1) = (em >>> k).shiftRightOne := fun _ => rfl
    have hdouble : m * 2 ^ (k + 1) = 2 * m * 2 ^ k := by ring
    rw [hstep, hdouble, ih]
    simp [ExtendedMantissa.ofMantissaAndAccuracy, ExtendedMantissa.shiftRightOne]

/-- A mantissa that is only followed by zeros stays as it is. -/
theorem unpack_round_exact {m k : Nat} {e t : Int} (hm : 2 ^ 52 ≤ m) (h : Canonical m t)
    (ht : t = e + k) (s : Sign) :
    (Float.Model.pack (roundWithAccuracy Format.binary64 s (m * 2 ^ k) e .exact)).unpack
      = .finite s m t (Nat.lt_of_lt_of_le (by decide) hm) := by
  have hfits := h.fits
  have hleast := h.least
  have hlog : (m * 2 ^ k).log2 = 52 + k := by
    have hsucc : 52 + k + 1 = 53 + k := by omega
    rw [Nat.log2_eq_iff (by positivity), hsucc, Nat.pow_add, Nat.pow_add]
    exact ⟨Nat.mul_le_mul_right _ hm, Nat.mul_lt_mul_of_pos_right hfits (Nat.two_pow_pos k)⟩
  have hamount : (roundedExponent (m * 2 ^ k) e - e).toNat = k := by
    rw [roundedExponent, hlog]
    omega
  have hshift : shiftToTargetExponent Format.binary64 (m * 2 ^ k) e .exact
      = (ExtendedMantissa.ofMantissaAndAccuracy m .exact, t) := by
    rw [shiftToTargetExponent, targetExponent_eq, shiftToExponent, hamount, shiftRight_exact, ht]
  have hrounded : (ExtendedMantissa.ofMantissaAndAccuracy m .exact).roundedMantissa = m := rfl
  rw [roundWithAccuracy, hshift]
  dsimp only
  rw [hrounded, shiftToTargetExponent_of_lt hfits hleast]
  dsimp only
  rw [dif_neg (by omega), unpack_pack h]

/-- A number below the greatest double is rounded to a finite one that is near to it. -/
theorem magnitude?_roundWithAccuracy {m : Nat} {e : Int} (h : 52 ≤ m.log2 ∨ e ≤ -1074)
    (hv : (m * 2 ^ e : ℚ) < greatestSize) (s : Sign) (a : Accuracy) :
    ∃ q, magnitude? (Float.Model.pack (roundWithAccuracy Format.binary64 s m e a)).unpack = some q
      ∧ q ≤ m * 2 ^ e * (1 + 2 ^ (-52 : ℤ)) + 2 ^ (-1074 : ℤ)
      ∧ (m * 2 ^ e * (1 - 2 ^ (-52 : ℤ)) : ℚ) ≤ q + 2 ^ (-1074 : ℤ) := by
  obtain ⟨em, t, hshift, hrounded⟩ := rounded_shift h a
  have hunit := hrounded.unit_le
  obtain ⟨hup, hdown⟩ := hrounded.near
  refine ⟨em.roundedMantissa * 2 ^ t, ?_, by linarith, by linarith⟩
  rw [magnitude?_eq, number?_roundWithAccuracy hshift hrounded hv, Option.map_some,
    abs_signed (by positivity)]

/-! ## Operations -/

theorem canonical_value {x : Float} {p : ℚ} (h : value? x = some p) :
    (∃ s, x.toModel.unpack = .zero s ∧ p = 0) ∨
      ∃ s m e hpos, x.toModel.unpack = .finite s m e hpos ∧ Canonical m e
        ∧ p = signed s (m * 2 ^ e) := by
  rw [value?] at h
  cases hx : x.toModel.unpack with
  | infinity s => simp [hx, number?] at h
  | notANumber => simp [hx, number?] at h
  | zero s =>
    rw [hx, number?, Option.some.injEq] at h
    exact .inl ⟨s, rfl, h.symm⟩
  | finite s m e hpos =>
    rw [hx, number?, Option.some.injEq] at h
    exact .inr ⟨s, m, e, hpos, rfl, canonical_of_unpack hx, h.symm⟩

theorem canonical_size {x : Float} {q : ℚ} (h : size? x = some q) :
    (∃ s, x.toModel.unpack = .zero s ∧ q = 0) ∨
      ∃ s m e hpos, x.toModel.unpack = .finite s m e hpos ∧ Canonical m e ∧ q = m * 2 ^ e := by
  rw [size?_eq] at h
  obtain ⟨p, hp, rfl⟩ := Option.map_eq_some_iff.mp h
  rcases canonical_value hp with ⟨s, hs, rfl⟩ | ⟨s, m, e, hpos, hs, hcanonical, rfl⟩
  · exact .inl ⟨s, hs, abs_zero⟩
  · exact .inr ⟨s, m, e, hpos, hs, hcanonical, abs_signed (by positivity) s⟩

/-- The magnitude of a double is not negative. -/
theorem size?_nonneg {x : Float} {q : ℚ} (h : size? x = some q) : 0 ≤ q := by
  rcases canonical_size h with ⟨s, _, rfl⟩ | ⟨s, m, e, hpos, _, _, rfl⟩
  · exact le_rfl
  · positivity

theorem greatestSize_pos : 0 < greatestSize :=
  mul_pos (by norm_num) (by positivity)

theorem two_pow_lt_greatestSize {e : Int} (h : e ≤ 971) : (2 ^ e : ℚ) < greatestSize := by
  have hpower : (2 ^ e : ℚ) ≤ 2 ^ (971 : ℤ) := zpow_le_zpow_right₀ (by norm_num) h
  have hgreatest : (1 * 2 ^ (971 : ℤ) : ℚ) < greatestSize :=
    mul_lt_mul_of_pos_right (by norm_num) (by positivity)
  rw [one_mul] at hgreatest
  exact hpower.trans_lt hgreatest

/-- No double is greater than the greatest. -/
theorem size_le_greatestSize {m : Nat} {e : Int} (hm : m < 2 ^ 53) (he : e ≤ 971) :
    (m * 2 ^ e : ℚ) ≤ greatestSize := by
  have hfits : (m : ℚ) ≤ 2 ^ 53 - 1 := by
    have hlt : (m + 1 : ℚ) ≤ 2 ^ 53 := by exact_mod_cast hm
    linarith
  have hpower : (2 ^ e : ℚ) ≤ 2 ^ (971 : ℤ) := zpow_le_zpow_right₀ (by norm_num) he
  exact mul_le_mul hfits hpower (by positivity) (by norm_num)

/-- The mantissa of a product has all its digits unless the exponent is very small. -/
theorem Canonical.mul {m n : Nat} {e f : Int} (hm : Canonical m e) (hn : Canonical n f)
    (hmpos : 0 < m) (hnpos : 0 < n) : 52 ≤ (m * n).log2 ∨ e + f ≤ -1074 := by
  have hlog : ∀ {a b : Nat}, 2 ^ 52 ≤ a → 0 < b → 52 ≤ (a * b).log2 := by
    intro a b ha hb
    rw [Nat.le_log2 (by positivity)]
    exact ha.trans (Nat.le_mul_of_pos_right a hb)
  rcases hm.normal with hlong | he
  · exact .inl (hlog hlong hnpos)
  · rcases hn.normal with hlong | hf
    · rw [Nat.mul_comm]
      exact .inl (hlog hlong hmpos)
    · right
      omega

theorem magnitude?_pack_zero (s : Sign) :
    magnitude? (Float.Model.pack (.zero s)).unpack = some 0 := by
  cases s <;> rfl

/-- A product below the limit is finite and hardly greater than the exact one. -/
theorem size?_mul {x y : Float} {p q : ℚ} (hx : size? x = some p) (hy : size? y = some q)
    (h : p * q < greatestSize) :
    ∃ r, size? (x * y) = some r ∧ r ≤ p * q * (1 + 2 ^ (-52 : ℤ)) + 2 ^ (-1074 : ℤ) := by
  have hproduct : size? (x * y) = magnitude? (Float.Model.pack
      (UnpackedFloat.mul Format.binary64 x.toModel.unpack y.toModel.unpack)).unpack := rfl
  rw [hproduct]
  rcases canonical_size hx with ⟨s, hs, rfl⟩ | ⟨s, m, e, hm, hs, hcanonical, rfl⟩
  · rcases canonical_size hy with ⟨s', hs', rfl⟩ | ⟨s', n, f, hn, hs', _, rfl⟩ <;>
      · rw [hs, hs', UnpackedFloat.mul, magnitude?_pack_zero]
        exact ⟨0, rfl, by simp⟩
  · rcases canonical_size hy with ⟨s', hs', rfl⟩ | ⟨s', n, f, hn, hs', hcanonical', rfl⟩
    · rw [hs, hs', UnpackedFloat.mul, magnitude?_pack_zero]
      exact ⟨0, rfl, by simp⟩
    · have hexact : (m * 2 ^ e * (n * 2 ^ f) : ℚ) = ((m * n : Nat) : ℚ) * 2 ^ (e + f) := by
        rw [zpow_add₀ (by norm_num)]
        push_cast
        ring
      rw [hexact] at h
      obtain ⟨r, hr, hle, _⟩ := magnitude?_roundWithAccuracy (hcanonical.mul hcanonical' hm hn) h
        (s * s') .exact
      rw [hs, hs', UnpackedFloat.mul, hr, hexact]
      exact ⟨r, rfl, hle⟩

/-- The mantissa of a quotient has all its digits unless the exponent is very small. -/
theorem divCore_spec {m n : Nat} (e f : Int) (hm : 0 < m) (hn : 0 < n) :
    ∃ quotient t a, divCore Format.binary64 m e n f = (quotient, t, a)
      ∧ (52 ≤ quotient.log2 ∨ t ≤ -1074)
      ∧ (quotient * 2 ^ t * (n * 2 ^ f) : ℚ) ≤ m * 2 ^ e := by
  have htarget : Format.binary64.targetExponent (totalExponent m e - totalExponent n f)
      = max (m.log2 + e - n.log2 - f - 53) (-1074) := by
    have hbits : Format.binary64.mantissaBits = 53 := rfl
    have hleast : Format.binary64.minExponent = -1074 := rfl
    rw [Format.targetExponent, totalExponent, totalExponent, hbits, hleast]
    congr 1
    omega
  obtain ⟨t, ht⟩ : ∃ t, t = min (e - f) (max (m.log2 + e - n.log2 - f - 53) (-1074)) := ⟨_, rfl⟩
  obtain ⟨k, hk⟩ : ∃ k : Nat, e - f - t = k := ⟨(e - f - t).toNat, by omega⟩
  have hcore : divCore Format.binary64 m e n f
      = ((m <<< k) / n, t, accuracyOfFraction ((m <<< k) % n) n) := by
    have hamount : (e - f - t).toNat = k := by omega
    rw [divCore, htarget, ← ht, hamount]
  refine ⟨_, _, _, hcore, ?_, ?_⟩
  · by_cases hmin : t ≤ -1074
    · exact .inr hmin
    · have hlong : 2 ^ 52 ≤ (m <<< k) / n := by
        rw [Nat.le_div_iff_mul_le hn, Nat.shiftLeft_eq]
        calc
          2 ^ 52 * n ≤ 2 ^ 52 * 2 ^ (n.log2 + 1) := Nat.mul_le_mul_left _ Nat.lt_log2_self.le
          _ = 2 ^ (52 + (n.log2 + 1)) := (Nat.pow_add ..).symm
          _ ≤ 2 ^ (m.log2 + k) := Nat.pow_le_pow_right (by decide) (by omega)
          _ = 2 ^ m.log2 * 2 ^ k := Nat.pow_add ..
          _ ≤ m * 2 ^ k := Nat.mul_le_mul_right _ (Nat.log2_self_le (by omega))
      exact .inl ((Nat.le_log2 (by omega)).mpr hlong)
  · have hfloor : (m <<< k) / n * n ≤ m * 2 ^ k := by
      rw [← Nat.shiftLeft_eq]
      exact Nat.div_mul_le_self _ _
    have hcast : (((m <<< k) / n : Nat) * n : ℚ) ≤ m * 2 ^ k := by exact_mod_cast hfloor
    have hsum : e = k + (t + f) := by omega
    have hnonneg : (0 : ℚ) ≤ 2 ^ (t + f) := by positivity
    have hscaled := mul_le_mul_of_nonneg_right hcast hnonneg
    rw [hsum, zpow_add₀ (by norm_num), zpow_natCast]
    rw [zpow_add₀ (by norm_num)] at hscaled ⊢
    linarith

/-- The quotient by a double that is not below two is finite. -/
theorem size?_div {x y : Float} {p q : ℚ} (hx : size? x = some p) (hy : size? y = some q)
    (hq : 2 ≤ q) : ∃ r, size? (x / y) = some r := by
  have hquotient : size? (x / y) = magnitude? (Float.Model.pack
      (UnpackedFloat.div Format.binary64 x.toModel.unpack y.toModel.unpack)).unpack := rfl
  rw [hquotient]
  rcases canonical_size hy with ⟨s', _, rfl⟩ | ⟨s', n, f, hn, hs', _, rfl⟩
  · norm_num at hq
  rcases canonical_size hx with ⟨s, hs, rfl⟩ | ⟨s, m, e, hm, hs, hcanonical, rfl⟩
  · rw [hs, hs', UnpackedFloat.div, magnitude?_pack_zero]
    exact ⟨0, rfl⟩
  · obtain ⟨quotient, t, a, hcore, hlong, hle⟩ := divCore_spec e f hm hn
    have hless : (quotient * 2 ^ t : ℚ) < greatestSize := by
      have hnonneg : (0 : ℚ) ≤ quotient * 2 ^ t := by positivity
      have hgreatest := size_le_greatestSize hcanonical.fits hcanonical.greatest
      have htwice := (mul_le_mul_of_nonneg_left hq hnonneg).trans (hle.trans hgreatest)
      have hpositive := greatestSize_pos
      linarith
    obtain ⟨r, hr, _⟩ := magnitude?_roundWithAccuracy hlong hless (s / s') a
    rw [hs, hs', UnpackedFloat.div, hcore, hr]
    exact ⟨r, rfl⟩

theorem value?_neg {x : Float} {p : ℚ} (h : value? x = some p) : value? (-x) = some (-p) := by
  have hneg : value? (-x) = number? (Float.Model.pack x.toModel.unpack.neg).unpack := rfl
  rw [hneg]
  rcases canonical_value h with ⟨s, hs, rfl⟩ | ⟨s, m, e, hpos, hs, hcanonical, rfl⟩
  · have hzero : number? (Float.Model.pack (.zero (-s))).unpack = some 0 := by cases s <;> rfl
    rw [hs, UnpackedFloat.neg, hzero, neg_zero]
  · have hsigned : ∀ q : ℚ, signed (-s) q = -signed s q := by
      intro q
      cases s with
      | positive => rfl
      | negative => exact (neg_neg q).symm
    rw [hs, UnpackedFloat.neg, unpack_pack hcanonical, number?, hsigned]

/-- The sign of a double does not count. -/
theorem size?_neg {x : Float} {q : ℚ} (h : size? x = some q) : size? (-x) = some q := by
  rw [size?_eq] at h ⊢
  obtain ⟨p, hp, rfl⟩ := Option.map_eq_some_iff.mp h
  rw [value?_neg hp, Option.map_some, abs_neg]

/-! ## Whole numbers -/

/-- A number from one on is rounded to one that is near to it, from whatever mantissa and
exponent. -/
theorem magnitude?_of_exact {v : ℚ} {m : Nat} {e : Int} (hv : 1 ≤ v) (hless : v < greatestSize)
    (hexact : (m * 2 ^ e : ℚ) = v) (hlong : 52 ≤ m.log2) :
    ∃ q, magnitude? (Float.Model.pack
        (roundWithAccuracy Format.binary64 .positive m e .exact)).unpack = some q
      ∧ q ≤ v * (1 + 2 ^ (-51 : ℤ)) ∧ v * (1 - 2 ^ (-51 : ℤ)) ≤ q := by
  rw [← hexact] at hless
  obtain ⟨q, hq, hup, hdown⟩ := magnitude?_roundWithAccuracy (.inl hlong) hless .positive .exact
  have hleast : (2 ^ (-1074 : ℤ) : ℚ) ≤ 2 ^ (-52 : ℤ) :=
    zpow_le_zpow_right₀ (by norm_num) (by norm_num)
  have hdouble : (2 ^ (-51 : ℤ) : ℚ) = 2 * 2 ^ (-52 : ℤ) := by norm_num
  have hscaled : (2 ^ (-52 : ℤ) : ℚ) ≤ v * 2 ^ (-52 : ℤ) :=
    le_mul_of_one_le_left (by positivity) hv
  rw [hexact] at hup hdown
  rw [hdouble]
  exact ⟨q, hq, by linarith, by linarith⟩

/-- The digits of a word below 2^53, moved up as far as a mantissa goes. -/
theorem aligned_range {w : Nat} (hw : 0 < w) (h : w < 2 ^ 53) :
    2 ^ 52 ≤ w <<< (52 - w.log2) ∧ w <<< (52 - w.log2) < 2 ^ 53 := by
  have hlog : w.log2 < 53 := (Nat.log2_lt (by omega)).mpr h
  rw [Nat.shiftLeft_eq]
  constructor
  · calc
      2 ^ 52 = 2 ^ (w.log2 + (52 - w.log2)) := by congr 1; omega
      _ = 2 ^ w.log2 * 2 ^ (52 - w.log2) := Nat.pow_add ..
      _ ≤ w * 2 ^ (52 - w.log2) := Nat.mul_le_mul_right _ (Nat.log2_self_le (by omega))
  · calc
      w * 2 ^ (52 - w.log2) < 2 ^ (w.log2 + 1) * 2 ^ (52 - w.log2) :=
        Nat.mul_lt_mul_of_pos_right Nat.lt_log2_self (Nat.two_pow_pos _)
      _ = 2 ^ (w.log2 + 1 + (52 - w.log2)) := (Nat.pow_add ..).symm
      _ = 2 ^ 53 := by congr 1; omega

/-- A word below 2^53 is rounded from its aligned digits. -/
theorem toFloat_of_lt {w : Nat} (hw : 0 < w) (h : w < 2 ^ 53) :
    w.toUInt64.toFloat = .ofModel (.pack (roundWithAccuracy Format.binary64 .positive
      (w <<< (52 - w.log2)) (0 - ((52 - w.log2 : Nat) : Int)) .exact)) := by
  have hword : w.toUInt64.toNat = w := UInt64.toNat_ofNat_of_lt (h.trans (by decide))
  have hlog : w.log2 < 53 := (Nat.log2_lt (by omega)).mpr h
  have hround : UnpackedFloat.round Format.binary64 .positive w 0
      = roundWithAccuracy Format.binary64 .positive (w <<< (52 - w.log2))
          (0 - ((52 - w.log2 : Nat) : Int)) .exact := by
    have hamount : (0 - roundedExponent w 0).toNat = 52 - w.log2 := by
      rw [roundedExponent]
      omega
    rw [UnpackedFloat.round, targetExponent_eq, decreaseExponent, hamount]
  have hfloat : w.toUInt64.toFloat = .ofModel (.pack
      (UnpackedFloat.normalize Format.binary64 w.toUInt64.toNat 0 .positive)) := rfl
  have hnormalize : UnpackedFloat.normalize Format.binary64 w 0 .positive
      = UnpackedFloat.round Format.binary64 .positive w 0 := by
    rw [UnpackedFloat.normalize, Int.compare_eq_gt.mpr (by omega)]
    rfl
  rw [hfloat, hword, hnormalize, hround]

/-- Mantissa and exponent of a finite number. -/
def parts? : UnpackedFloat → Option (Nat × Int)
  | .zero _ => some (0, 0)
  | .finite _ m e _ => some (m, e)
  | _ => none

theorem size?_of_parts {x : Float} {m : Nat} {e : Int}
    (h : parts? x.toModel.unpack = some (m, e)) : size? x = some ((m : ℚ) * 2 ^ e) := by
  rw [size?]
  cases hx : x.toModel.unpack with
  | infinity s => simp [hx, parts?] at h
  | notANumber => simp [hx, parts?] at h
  | zero s =>
    rw [hx, parts?, Option.some.injEq, Prod.mk.injEq] at h
    rw [magnitude?, ← h.1, Nat.cast_zero, zero_mul]
  | finite s m' e' hpos =>
    rw [hx, parts?, Option.some.injEq, Prod.mk.injEq] at h
    rw [magnitude?, h.1, h.2]

/-- A word below 2^53 is multiplied with one. -/
theorem ofNat_of_lt {w : Nat} (h : w < 2 ^ 53) :
    Float.ofNat w = w.toUInt64.toFloat * Float.ofBits 0x3FF0000000000000 := by
  have hofNat : Float.ofNat w = Float.ofScientific w false 0 := rfl
  rw [hofNat, Float.ofScientific, dif_pos ⟨h, by decide⟩]
  rfl

theorem unpack_one : (Float.ofBits 0x3FF0000000000000).toModel.unpack
    = .finite .positive (2 ^ 52) (-52) (by decide) := rfl

/-- A word below 2^53 is a double. -/
theorem unpack_ofNat_of_lt {w : Nat} (hw : 0 < w) (h : w < 2 ^ 53) :
    ∃ hpos, (Float.ofNat w).toModel.unpack
      = .finite .positive (w <<< (52 - w.log2)) (-((52 - w.log2 : Nat) : Int)) hpos := by
  obtain ⟨hlong, hfits⟩ := aligned_range hw h
  have hlog : w.log2 < 53 := (Nat.log2_lt (by omega)).mpr h
  have hcanonical : Canonical (w <<< (52 - w.log2)) (-((52 - w.log2 : Nat) : Int)) :=
    ⟨hfits, by omega, by omega, .inl hlong⟩
  have hword : w.toUInt64.toFloat.toModel.unpack
      = .finite .positive (w <<< (52 - w.log2)) (-((52 - w.log2 : Nat) : Int)) (by omega) := by
    have hkept := unpack_round_exact (k := 0) (e := 0 - ((52 - w.log2 : Nat) : Int)) hlong
      hcanonical (by omega) .positive
    rw [pow_zero, mul_one] at hkept
    rw [toFloat_of_lt hw h]
    exact hkept
  have hproduct : ∀ x y : Float, (x * y).toModel.unpack = (Float.Model.pack
      (UnpackedFloat.mul Format.binary64 x.toModel.unpack y.toModel.unpack)).unpack :=
    fun _ _ => rfl
  refine ⟨by omega, ?_⟩
  rw [ofNat_of_lt h, hproduct, hword, unpack_one, UnpackedFloat.mul]
  exact unpack_round_exact (k := 52) hlong hcanonical (by omega) .positive

theorem value?_ofNat_of_lt {w : Nat} (h : w < 2 ^ 53) : value? (Float.ofNat w) = some (w : ℚ) := by
  rcases Nat.eq_zero_or_pos w with rfl | hw
  · have hzero : (Float.ofNat 0).toModel.unpack = .zero .positive := rfl
    rw [value?, hzero, number?, Nat.cast_zero]
  · obtain ⟨_, hunpack⟩ := unpack_ofNat_of_lt hw h
    rw [value?, hunpack, number?, signed, Nat.shiftLeft_eq, zpow_neg, zpow_natCast]
    push_cast
    rw [mul_assoc, mul_inv_cancel₀ (by positivity), mul_one]

/-- A great word, and a great power of ten, are multiplied before they are rounded. -/
theorem ofScientific_of_great {w k : Nat} (hw : 0 < w) (h : 2 ^ 53 ≤ w ∨ 22 < k) (hk : k ≤ 2048) :
    Float.ofScientific w false k = .ofModel (.pack (roundWithAccuracy Format.binary64 .positive
      (w <<< 53 * 10 ^ k) (-53 + 0) .exact)) := by
  have hgreat : ¬(w < 2 ^ 53 ∧ k ≤ 22) := by omega
  have hpower : (2 ^ Format.binary64.exponentBits : Int) = 2048 := rfl
  have hmost : ¬(k : Int) > 2 ^ Format.binary64.exponentBits := by omega
  have hleast : ¬(k : Int) < -((2 ^ Format.binary64.exponentBits : Int) + w.log2) := by omega
  have hscientific : UnpackedFloat.ofScientific Format.binary64 w k
      = roundWithAccuracy Format.binary64 .positive (w <<< 53 * 10 ^ k) (-53 + 0) .exact := by
    rw [UnpackedFloat.ofScientific, dif_neg (by omega), if_neg hmost, if_neg hleast,
      if_pos (Int.natCast_nonneg k)]
    rfl
  rw [Float.ofScientific, dif_neg hgreat, ← hscientific]
  rfl

theorem shifted_eq (w k : Nat) :
    ((w <<< 53 * 10 ^ k : Nat) * 2 ^ (-53 + 0 : ℤ) : ℚ) = w * 10 ^ k := by
  rw [Nat.shiftLeft_eq, Nat.mul_right_comm]
  push_cast
  rw [mul_assoc]
  norm_num

theorem size?_ofScientific_of_great {w k : Nat} (hw : 0 < w) (h : 2 ^ 53 ≤ w ∨ 22 < k)
    (hk : k ≤ 2048) (hless : (w * 10 ^ k : ℚ) < greatestSize) :
    ∃ q, size? (Float.ofScientific w false k) = some q
      ∧ q ≤ w * 10 ^ k * (1 + 2 ^ (-51 : ℤ)) ∧ w * 10 ^ k * (1 - 2 ^ (-51 : ℤ)) ≤ q := by
  have hone : 1 ≤ w * 10 ^ k := Nat.mul_pos hw (Nat.pow_pos (by decide))
  have hlong : 52 ≤ (w <<< 53 * 10 ^ k).log2 := by
    have hle : 2 ^ 52 ≤ w <<< 53 * 10 ^ k := by
      rw [Nat.shiftLeft_eq, Nat.mul_right_comm]
      omega
    exact (Nat.le_log2 (by omega)).mpr hle
  rw [ofScientific_of_great hw h hk]
  exact magnitude?_of_exact (by exact_mod_cast hone) hless (shifted_eq w k) hlong

/-- A word of 64 bits as a double is hardly greater than the word. -/
theorem size?_ofNat {w : Nat} (h : w < 2 ^ 64) :
    ∃ q, size? (Float.ofNat w) = some q ∧ q ≤ w * (1 + 2 ^ (-49 : ℤ)) := by
  by_cases hsmall : w < 2 ^ 53
  · refine ⟨w, ?_, le_mul_of_one_le_right (by positivity) (by norm_num)⟩
    rw [size?_eq, value?_ofNat_of_lt hsmall, Option.map_some, abs_of_nonneg (by positivity)]
  · have hword : (w * 10 ^ 0 : ℚ) < 2 ^ (64 : ℤ) := by
      rw [pow_zero, mul_one]
      exact_mod_cast h
    have hgreat : size? (Float.ofNat w) = size? (Float.ofScientific w false 0) := rfl
    obtain ⟨q, hq, hle, _⟩ := size?_ofScientific_of_great (by omega) (.inl (by omega)) (by decide)
      (hword.trans (two_pow_lt_greatestSize (by norm_num)))
    rw [hgreat]
    refine ⟨q, hq, ?_⟩
    norm_num at hle ⊢
    linarith

/-! ## Finite doubles -/

/-- The finite doubles are those that have a magnitude. -/
theorem isFinite_iff (x : Float) : isFinite x = true ↔ ∃ q, size? x = some q := by
  have hexponent : (@unpackExponent Format.binary64 x.toModel.toBits.toBitVec).toNat
      = x.toBits.toNat / 2 ^ 52 % 2 ^ 11 := by
    have hbits : x.toBits = x.toModel.toBits := rfl
    rw [hbits, unpackExponent]
    simp [Nat.shiftRight_eq_div_pow]
  have hfull : @unpackExponent Format.binary64 x.toModel.toBits.toBitVec = -1#11
      ↔ x.toBits.toNat / 2 ^ 52 % 2 ^ 11 = 2 ^ 11 - 1 := by
    rw [← hexponent]
    exact ⟨fun h => by rw [h]; rfl, fun h => BitVec.eq_of_toNat_eq h⟩
  simp only [isFinite, Nat.pow_eq]
  rw [decide_eq_true_eq, ne_eq, ← hfull, size?, Float.Model.unpack, UnpackedFloat.unpack]
  constructor
  · intro hless
    rw [if_neg hless]
    split
    · split <;> exact ⟨_, rfl⟩
    · exact ⟨_, rfl⟩
  · rintro ⟨q, hq⟩ hless
    rw [if_pos hless] at hq
    split at hq <;> simp [magnitude?] at hq

theorem isInf_eq_false {x : Float} {q : ℚ} (h : size? x = some q) : x.isInf = false := by
  have hisInf : x.isInf = x.toModel.unpack.isInf := rfl
  rw [hisInf]
  rcases canonical_size h with ⟨s, hs, _⟩ | ⟨s, m, e, hpos, hs, _⟩ <;> rw [hs] <;> rfl

end DualStore.Decimal
