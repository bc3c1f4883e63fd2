import DualStore.Proofs.DecimalPowers

/-!
# The size of shortest digits

The shortest digits of a double are at most seventeen, and the number that they stand for lies in
the interval that rounds to the double, so it is hardly greater than the double.

* `decimalPoint_spec`, `onGrid_spec`, `searchGrids_spec`, `dropZeros_spec`: the steps of the search;
* `HasDigits`: the digits of a double and what is known of them;
* `hasDigits_shortest`: the shortest digits of a finite double;
* `isRead_shortest`: they are read with their power of ten.
-/

namespace DualStore.Decimal

/-- What a double taken apart satisfies if it is finite. -/
structure Binary.Finite (b : Binary) : Prop where
  fits : b.mantissa < 2 ^ 53
  greatest : b.exponent ≤ 971
  narrow : b.narrow = true → b.mantissa = 2 ^ 52

theorem finite_ofFloat {x : Float} (h : isFinite x = true) : (Binary.ofFloat x).Finite := by
  have hless : x.toBits.toNat / 2 ^ 52 % 2 ^ 11 ≠ 2 ^ 11 - 1 := by
    simpa only [isFinite, Nat.pow_eq, decide_eq_true_eq] using h
  simp only [Binary.ofFloat, Binary.ofBits, Nat.pow_eq]
  split
  · refine ⟨?_, ?_, by simp⟩
    · have hmod := Nat.mod_lt x.toBits.toNat (Nat.two_pow_pos 52)
      dsimp only
      omega
    · dsimp only
      omega
  · refine ⟨?_, ?_, ?_⟩
    · have hmod := Nat.mod_lt x.toBits.toNat (Nat.two_pow_pos 52)
      dsimp only
      omega
    · have hmod := Nat.mod_lt (x.toBits.toNat / 2 ^ 52) (Nat.two_pow_pos 11)
      dsimp only
      omega
    · intro hnarrow
      simp only [Bool.and_eq_true, decide_eq_true_eq] at hnarrow
      dsimp only
      omega

/-! ## The search -/

/-- The search for the decimal point stays above the number. -/
theorem decimalPoint_spec {a : Nat × Nat} {guess : Int} (steps : Nat)
    (h : ratioLt a (scaledTen 1 guess) = true) :
    ratioLt a (scaledTen 1 (decimalPoint a steps guess)) = true
      ∧ guess - steps ≤ decimalPoint a steps guess ∧ decimalPoint a steps guess ≤ guess := by
  induction steps generalizing guess with
  | zero => exact ⟨h, by simp [decimalPoint], le_rfl⟩
  | succ steps ih =>
    rw [decimalPoint]
    split
    · next hless =>
      obtain ⟨hnext, hleast, hgreatest⟩ := ih hless
      exact ⟨hnext, by omega, by omega⟩
    · exact ⟨h, by omega, le_rfl⟩

/-- A digit string of a grid lies in the interval, and is next to the number. -/
theorem onGrid_spec {tie : Tie} {i : Interval} {a : Nat × Nat} {e : Int} {d : Nat}
    (h : onGrid tie i a e = some d) :
    i.holds (scaledTen d e) = true
      ∧ d ≤ a.1 * (scaledTen 1 e).2 / (a.2 * (scaledTen 1 e).1) + 1 := by
  unfold onGrid at h
  dsimp only at h
  generalize a.1 * (scaledTen 1 e).2 / (a.2 * (scaledTen 1 e).1) = below at h ⊢
  cases hlower : i.holds (scaledTen below e) <;> cases hupper : i.holds (scaledTen (below + 1) e)
  · simp [hlower, hupper] at h
  · simp only [hlower, hupper, Option.some.injEq] at h
    subst h
    exact ⟨hupper, le_rfl⟩
  · simp only [hlower, hupper, Option.some.injEq] at h
    subst h
    exact ⟨hlower, by omega⟩
  · have hboth : d = below ∨ d = below + 1 := by
      simp only [hlower, hupper] at h
      split at h
      · exact .inl (Option.some.inj h).symm
      · exact .inr (Option.some.inj h).symm
      · cases tie with
        | up => exact .inr (Option.some.inj h).symm
        | toEven =>
          simp only [Option.some.injEq] at h
          split at h
          · exact .inl h.symm
          · exact .inr h.symm
    rcases hboth with rfl | rfl
    · exact ⟨hlower, by omega⟩
    · exact ⟨hupper, le_rfl⟩

/-- What the search finds comes from one of the grids, unless it finds nothing. -/
theorem searchGrids_spec (tie : Tie) (i : Interval) (a : Nat × Nat) (point : Int) (ns : List Nat) :
    searchGrids tie i a point ns = ⟨0, 0⟩ ∨
      ∃ n ∈ ns, ∃ d, onGrid tie i a (point - n) = some d
        ∧ searchGrids tie i a point ns = ⟨d, point - n⟩ := by
  induction ns with
  | nil => exact .inl rfl
  | cons n rest ih =>
    rw [searchGrids]
    cases hgrid : onGrid tie i a (point - n) with
    | some d => exact .inr ⟨n, List.mem_cons_self, d, hgrid, rfl⟩
    | none =>
      rcases ih with hnone | ⟨m, hm, d, hd, heq⟩
      · exact .inl hnone
      · exact .inr ⟨m, List.mem_cons_of_mem n hm, d, hd, heq⟩

/-- Dropping zeros keeps the number. -/
theorem dropZeros_spec (steps : Nat) (d : Digits) :
    (dropZeros steps d).digits ≤ d.digits ∧ ((dropZeros steps d).digits = 0 → d.digits = 0)
      ∧ (d.digits = 0 → dropZeros steps d = d)
      ∧ d.exponent ≤ (dropZeros steps d).exponent
      ∧ (dropZeros steps d).exponent ≤ d.exponent + steps
      ∧ ((dropZeros steps d).digits * 10 ^ (dropZeros steps d).exponent : ℚ)
          = d.digits * 10 ^ d.exponent := by
  induction steps generalizing d with
  | zero => exact ⟨le_rfl, id, fun _ => rfl, le_rfl, by simp [dropZeros], rfl⟩
  | succ steps ih =>
    rw [dropZeros]
    split
    · next hzero =>
      simp only [Bool.and_eq_true, ne_eq, decide_eq_true_eq] at hzero
      obtain ⟨hdigits, hpositive, _, hleast, hgreatest, hvalue⟩ :=
        ih ⟨d.digits / 10, d.exponent + 1⟩
      dsimp only at hdigits hpositive hleast hgreatest hvalue
      refine ⟨by omega, fun h => ?_, fun h => absurd h hzero.1, by omega, by omega, ?_⟩
      · have hnone := hpositive h
        omega
      · have htens : d.digits = d.digits / 10 * 10 := by omega
        have hcast : (d.digits : ℚ) = (d.digits / 10 : Nat) * 10 := by exact_mod_cast htens
        rw [hvalue, hcast, zpow_add₀ (by norm_num)]
        ring
    · exact ⟨le_rfl, id, fun _ => rfl, le_rfl, by omega, rfl⟩

/-! ## The result -/

/-- What is in the interval of a double other than zero is not zero, and hardly greater than the
double. -/
theorem holds_spec {b : Binary} (hb : b.mantissa ≠ 0) {d : Nat} {e : Int}
    (h : b.interval.holds (scaledTen d e) = true) :
    d ≠ 0 ∧ (d * 10 ^ e : ℚ) ≤ (4 * b.mantissa + 2) * 2 ^ (b.exponent - 2) := by
  obtain ⟨low, hlow, hinterval⟩ :
      ∃ low, 0 < low ∧ b.interval.low = scaled low (b.exponent - 2) := by
    refine ⟨_, ?_, rfl⟩
    split <;> omega
  have hbounds : ratioLe b.interval.low (scaledTen d e) = true
      ∧ ratioLe (scaledTen d e) b.interval.high = true := by
    have hle : ∀ {p q : Nat × Nat}, ratioLt p q = true → ratioLe p q = true := by
      intro p q hlt
      rw [ratioLt, decide_eq_true_eq] at hlt
      rw [ratioLe, decide_eq_true_eq]
      exact hlt.le
    rw [Interval.holds] at h
    split at h
    · exact Bool.and_eq_true_iff.mp h
    · exact (Bool.and_eq_true_iff.mp h).imp hle hle
  have hhigh : b.interval.high = scaled (4 * b.mantissa + 2) (b.exponent - 2) := rfl
  rw [hinterval, hhigh, ratioLe_iff (scaled_pos ..) (scaledTen_pos ..) (scaled_eq ..)
    (scaledTen_eq ..), ratioLe_iff (scaledTen_pos ..) (scaled_pos ..) (scaledTen_eq ..)
    (scaled_eq ..)] at hbounds
  refine ⟨?_, by exact_mod_cast hbounds.2⟩
  rintro rfl
  have hpositive : (0 : ℚ) < low * 2 ^ (b.exponent - 2) := by positivity
  have hle := hbounds.1
  norm_num at hle
  linarith

/-- A number below a power of ten has few digits on a grid. -/
theorem below_lt {a : Nat × Nat} {p : ℚ} (ha : 0 < a.2) (hp : (a.1 : ℚ) = p * a.2) {point : Int}
    (hless : p < 10 ^ point) (n : Nat) :
    a.1 * (scaledTen 1 (point - n)).2 / (a.2 * (scaledTen 1 (point - n)).1) < 10 ^ n := by
  have hstep := scaledTen_eq 1 (point - n)
  have hpos := scaledTen_pos 1 (point - n)
  generalize scaledTen 1 (point - n) = step at hstep hpos
  have ha' : (0 : ℚ) < a.2 := by exact_mod_cast ha
  have hpos' : (0 : ℚ) < step.2 := by exact_mod_cast hpos
  have hone : (0 : ℚ) < step.1 := by
    rw [hstep]
    positivity
  have hone' : 0 < step.1 := by exact_mod_cast hone
  have hsplit : (10 ^ point : ℚ) = 10 ^ n * 10 ^ (point - n) := by
    rw [← zpow_natCast, ← zpow_add₀ (by norm_num)]
    congr 1
    omega
  have hscaled : (a.1 * step.2 : ℚ) < 10 ^ n * (a.2 * step.1) := by
    rw [hp, hstep]
    have hproduct := mul_lt_mul_of_pos_right hless (mul_pos ha' hpos')
    rw [hsplit] at hproduct
    push_cast
    linarith
  rw [Nat.div_lt_iff_lt_mul (Nat.mul_pos ha hone')]
  exact_mod_cast hscaled

/-- The digits of a double: at most seventeen, none for nothing, with a power of ten that is not
far from zero, and hardly more than the double. -/
structure HasDigits (b : Binary) (d : Digits) : Prop where
  fits : d.digits ≤ 10 ^ 17
  zero : d.digits = 0 → d.exponent = 0
  least : -407 ≤ d.exponent
  greatest : d.exponent ≤ 330
  near : (d.digits * 10 ^ d.exponent : ℚ) ≤ (4 * b.mantissa + 2) * 2 ^ (b.exponent - 2)

theorem hasDigits_none (b : Binary) : HasDigits b ⟨0, 0⟩ where
  fits := by decide
  zero := fun _ => rfl
  least := by decide
  greatest := by decide
  near := by
    dsimp only
    rw [Nat.cast_zero, zero_mul]
    positivity

theorem ratioLt_iff_power (b : Binary) (k : Int) :
    ratioLt b.ratio (scaledTen 1 k) = true ↔ (b.mantissa * 2 ^ b.exponent : ℚ) < 10 ^ k := by
  have hratio : b.ratio = scaled b.mantissa b.exponent := rfl
  rw [hratio, ratioLt_iff (scaled_pos ..) (scaledTen_pos ..) (scaled_eq ..) (scaledTen_eq ..),
    Nat.cast_one, one_mul]

/-- The decimal point of a finite double is looked for far enough. -/
theorem ratioLt_of_finite {b : Binary} (h : b.Finite) :
    ratioLt b.ratio (scaledTen 1 310) = true := by
  have hnat : (2 ^ 53 - 1) * 2 ^ 971 < 10 ^ 310 := by decide +kernel
  rw [ratioLt_iff_power]
  refine (size_le_greatestSize h.fits h.greatest).trans_lt ?_
  rw [greatestSize_eq]
  exact_mod_cast hnat

/-- The shortest digits of a finite double. -/
theorem hasDigits_shortest {b : Binary} (h : b.Finite) (tie : Tie) :
    HasDigits b (shortest tie b) := by
  rw [shortest]
  split
  · exact hasDigits_none b
  · next hb =>
    obtain ⟨hpoint, hleast, hgreatest⟩ := decimalPoint_spec 700 (ratioLt_of_finite h)
    dsimp only
    rcases searchGrids_spec tie b.interval b.ratio (decimalPoint b.ratio 700 310)
        (List.range' 1 17) with hnone | ⟨n, hn, d, hd, heq⟩
    · rw [hnone]
      exact hasDigits_none b
    · rw [heq]
      obtain ⟨hn, hn'⟩ : 1 ≤ n ∧ n ≤ 17 := by
        rw [List.mem_range'_1] at hn
        omega
      obtain ⟨hholds, hd⟩ := onGrid_spec hd
      obtain ⟨hne, hnear⟩ := holds_spec hb hholds
      have hratio : b.ratio = scaled b.mantissa b.exponent := rfl
      have hbelow := below_lt (scaled_pos ..) (scaled_eq ..) ((ratioLt_iff_power b _).mp hpoint) n
      have hpower : 10 ^ n ≤ 10 ^ 17 := Nat.pow_le_pow_right (by decide) hn'
      obtain ⟨hfits, hzero, _, hup, hdown, hvalue⟩ :=
        dropZeros_spec 20 ⟨d, decimalPoint b.ratio 700 310 - n⟩
      dsimp only at hfits hzero hup hdown hvalue
      rw [← hratio] at hbelow
      refine ⟨by omega, fun h => absurd (hzero h) hne, by omega, by omega, ?_⟩
      rw [hvalue]
      exact hnear

/-- A double that is not one of the greatest has digits that stay a little below the greatest. -/
theorem size_le_safeSize {b : Binary} (h : b.Finite)
    (hless : b.exponent ≠ 971 ∨ b.mantissa < 2 ^ 53 - 32) :
    ((4 * b.mantissa + 2) * 2 ^ (b.exponent - 2) : ℚ) ≤ Json.safeSize := by
  have hquarter : ((4 * b.mantissa + 2) * 2 ^ (b.exponent - 2) : ℚ)
      = (b.mantissa + 1 / 2) * 2 ^ b.exponent := by
    rw [zpow_sub₀ (by norm_num)]
    ring
  rw [hquarter, Json.safeSize]
  rcases hless with hexponent | hmantissa
  · have hle : b.exponent ≤ 970 := by
      have hgreatest := h.greatest
      omega
    have hpower : (2 ^ b.exponent : ℚ) ≤ 2 ^ (970 : ℤ) := zpow_le_zpow_right₀ (by norm_num) hle
    have htwice : (2 ^ (971 : ℤ) : ℚ) = 2 * 2 ^ (970 : ℤ) := zpow_one_add₀ (by norm_num) 970
    have hfits : (b.mantissa : ℚ) < 2 ^ 53 := by exact_mod_cast h.fits
    rw [htwice, ← mul_assoc]
    exact mul_le_mul (by linarith) hpower (by positivity) (by norm_num)
  · have hpower : (2 ^ b.exponent : ℚ) ≤ 2 ^ (971 : ℤ) :=
      zpow_le_zpow_right₀ (by norm_num) h.greatest
    have hfits : (b.mantissa + 33 : ℚ) ≤ 2 ^ 53 := by
      have hle : b.mantissa + 33 ≤ 2 ^ 53 := by omega
      exact_mod_cast hle
    exact mul_le_mul (by linarith) hpower (by positivity) (by norm_num)

/-- Whether the shortest digits of a double are read with their power of ten. -/
def shortestIsRead (b : Binary) : Bool :=
  match Json.assemble (shortest .toEven b).digits (shortest .toEven b).exponent with
  | some y => (parts? y.toModel.unpack).isSome
  | none => false

theorem isRead_of_shortestIsRead {b : Binary} (h : shortestIsRead b = true) :
    Json.IsRead (shortest .toEven b).digits (shortest .toEven b).exponent := by
  rw [shortestIsRead] at h
  split at h
  · next y hy =>
    obtain ⟨⟨m, e⟩, hparts⟩ := Option.isSome_iff_exists.mp h
    exact ⟨y, _, hy, size?_of_parts hparts⟩
  · contradiction

/-- **The shortest digits of a finite double are read with their power of ten.** -/
theorem isRead_shortest {b : Binary} (h : b.Finite) :
    Json.IsRead (shortest .toEven b).digits (shortest .toEven b).exponent := by
  have hdigits := hasDigits_shortest h .toEven
  have hword : (shortest .toEven b).digits ≤ Json.wordMax :=
    hdigits.fits.trans (by decide)
  -- The rounding errors of reading might overflow for the greatest doubles: these are tried out.
  by_cases htop : b.exponent = 971 ∧ 2 ^ 53 - 32 ≤ b.mantissa
  · have hall : ∀ i < 32, shortestIsRead ⟨false, 2 ^ 53 - 1 - i, 971, false⟩ = true := by
      decide +kernel
    obtain ⟨negative, mantissa, exponent, narrow⟩ := b
    obtain ⟨rfl, hmantissa⟩ := htop
    have hfits := h.fits
    have hnarrow := h.narrow
    dsimp only at hmantissa hfits hnarrow
    cases narrow with
    | true =>
      have heq := hnarrow rfl
      omega
    | false =>
      have hindex : mantissa = 2 ^ 53 - 1 - (2 ^ 53 - 1 - mantissa) := by omega
      have hread := isRead_of_shortestIsRead (hall (2 ^ 53 - 1 - mantissa) (by omega))
      rw [← hindex] at hread
      exact hread
  · have hsafe := size_le_safeSize h (by omega)
    cases hexponent : (shortest .toEven b).exponent with
    | negSucc k => exact Json.isRead_negative hword (Int.negSucc_lt_zero k)
    | ofNat k =>
      have hnear := hdigits.near
      rw [hexponent] at hnear
      exact Json.isRead_of_le hword (hnear.trans hsafe)

end DualStore.Decimal
