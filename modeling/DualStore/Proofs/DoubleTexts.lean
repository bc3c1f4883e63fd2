import DualStore.Decimal.Layout
import DualStore.Proofs.NumberTexts
import DualStore.Proofs.ShortestDigits

/-!
# Doubles written and read

The JSON text of a finite double is read as a finite double. It need not be the same one: the digits
are the shortest ones, and reading multiplies or divides once, which may miss the last digit.

* `readPower_endsNumber`, `readPower_exponent`: the end of a number, without and with a power;
* `IsLeading`, `ReadsAs`: what may stand in front of a point, and a text read as word and power;
* `readsAs_positional`, `readsAs_scientific`: the two layouts of a double;
* `exists_readNumber`: the text of a double;
* `rereadDouble`: the double that the text of a double is read as.
-/

namespace DualStore.Json

open Decimal

/-! ## The end of a number -/

/-- A number that ends is put together. -/
theorem readPower_endsNumber (word : Nat) (power : Int) {rest : List Char} (h : EndsNumber rest) :
    readPower word power rest = (assemble word power).map (·, rest) := by
  cases rest with
  | nil => rfl
  | cons c after =>
    have hends : goesOn (c :: after) = false := h.2
    simp only [goesOn, Bool.or_eq_false_iff, decide_eq_false_iff_not] at hends
    have hplain : ¬(c = 'e' ∨ c = 'E') := by
      rintro (hc | hc)
      · exact hends.1.2 hc
      · exact hends.2 hc
    rw [readPower, if_neg hplain]

theorem ofDigitChars_digits (n : Nat) : Nat.ofDigitChars 10 (digits n) 0 = n :=
  Nat.ofDigitChars_ten_toDigits

theorem powerSign_powerChars (power : Int) (rest : List Char) :
    powerSign (powerChars true 1 power ++ rest)
      = (decide (power < 0), digits power.natAbs ++ rest) := by
  have hlength : 1 ≤ (digits power.natAbs).length :=
    List.length_pos_iff.mpr (digits_ne_nil power.natAbs)
  have hzeros : zeros (1 - (digits power.natAbs).length) = [] := by
    have hnone : 1 - (digits power.natAbs).length = 0 := by omega
    rw [hnone]
    rfl
  rw [powerChars, hzeros, List.append_nil]
  by_cases h : power < 0
  · rw [if_pos h, decide_eq_true h]
    rfl
  · rw [if_neg h, if_pos rfl, decide_eq_false h]
    rfl

/-- The power of ten behind a number is added to the power of its digits. -/
theorem readPower_exponent (word : Nat) (power : Int) {size : Int} {rest : List Char}
    (h : EndsNumber rest) (hsize : size.natAbs ≤ 2147483647) :
    readPower word power ('e' :: (powerChars true 1 size ++ rest))
      = (assemble word (power + size)).map (·, rest) := by
  have hsum : (if decide (size < 0) = true then power - (size.natAbs : Int)
      else power + (size.natAbs : Int)) = power + size := by
    split
    · next hless =>
      rw [decide_eq_true_eq] at hless
      omega
    · next hless =>
      rw [decide_eq_true_eq] at hless
      omega
  rw [readPower, if_pos (.inl rfl), powerSign_powerChars]
  dsimp only
  rw [Text.takeWhile_append_stopsAt (all_isDigit_digits _) h.1,
    Text.dropWhile_append_stopsAt (all_isDigit_digits _) h.1, if_neg (digits_ne_nil _),
    ofDigitChars_digits, if_neg (by omega), hsum]

/-! ## Digits with a point or a power -/

/-- What may stand in front of the point or of the power: digits without a zero in front. -/
structure IsLeading (cs : List Char) : Prop where
  digits : cs.all Char.isDigit = true
  leading : ¬(cs = [] ∨ (cs.head? = some '0' ∧ 1 < cs.length))

theorem isLeading_of_head {cs : List Char} (hdigits : cs.all Char.isDigit = true) (hne : cs ≠ [])
    (hhead : cs.head? ≠ some '0') : IsLeading cs := by
  refine ⟨hdigits, ?_⟩
  rintro (hnil | ⟨hzero, _⟩)
  · exact hne hnil
  · exact hhead hzero

/-- The digits in front of a point or a power are read as a word. -/
theorem readMagnitude_leading {negative : Bool} {cs rest : List Char} (h : IsLeading cs)
    (hfits : Nat.ofDigitChars 10 cs 0 ≤ wordMax) (hstops : Text.StopsAt Char.isDigit rest)
    (hgoes : goesOn rest = true) :
    readMagnitude negative (cs ++ rest)
      = (readFraction (Nat.ofDigitChars 10 cs 0) 0 rest).map fun (x, rest) =>
          (.float (if negative then -x else x), rest) := by
  unfold readMagnitude
  simp only [Text.takeWhile_append_stopsAt h.digits hstops,
    Text.dropWhile_append_stopsAt h.digits hstops, absorb_of_le hfits, if_neg h.leading, hgoes,
    Bool.true_eq_false, and_false, if_false, List.length_nil, Nat.cast_zero]

/-- The text of a magnitude is read as a word times a power of ten wherever a number may end. -/
def ReadsAs (text : List Char) (word : Nat) (power : Int) : Prop :=
  ∀ negative rest, EndsNumber rest → readMagnitude negative (text ++ rest)
    = (assemble word power).map fun x => (.float (if negative then -x else x), rest)

/-- The digits on both sides of a point make one word. -/
theorem readFraction_point {cs fs rest : List Char} {n : Nat} (hfs : fs.all Char.isDigit = true)
    (hne : fs ≠ []) (hn : Nat.ofDigitChars 10 (cs ++ fs) 0 = n) (hfits : n ≤ wordMax)
    (hrest : Text.StopsAt Char.isDigit rest) :
    readFraction (Nat.ofDigitChars 10 cs 0) 0 ('.' :: (fs ++ rest))
      = readPower n (-(fs.length : Int)) rest := by
  rw [Nat.ofDigitChars_append] at hn
  rw [readFraction, Text.takeWhile_append_stopsAt hfs hrest,
    Text.dropWhile_append_stopsAt hfs hrest]
  simp only [if_neg hne, absorb_of_le (hn.trans_le hfits), hn, List.length_nil, Nat.sub_zero,
    zero_sub]

theorem ofDigitChars_le {cs fs : List Char} {n : Nat}
    (hn : Nat.ofDigitChars 10 (cs ++ fs) 0 = n) : Nat.ofDigitChars 10 cs 0 ≤ n := by
  rw [← hn, Nat.ofDigitChars_append]
  exact le_ofDigitChars fs _

/-- Digits with a point. -/
theorem readsAs_point {cs fs : List Char} {n : Nat} (h : IsLeading cs)
    (hfs : fs.all Char.isDigit = true) (hne : fs ≠ [])
    (hn : Nat.ofDigitChars 10 (cs ++ fs) 0 = n) (hfits : n ≤ wordMax) :
    ReadsAs (cs ++ '.' :: fs) n (-(fs.length : Int)) := by
  intro negative rest hrest
  rw [List.append_assoc, List.cons_append, readMagnitude_leading h
    ((ofDigitChars_le hn).trans hfits) (Text.stopsAt_cons rfl _) rfl,
    readFraction_point hfs hne hn hfits hrest.1, readPower_endsNumber _ _ hrest, Option.map_map]
  rfl

/-- Digits with a power of ten. -/
theorem readsAs_power {cs : List Char} {n : Nat} {size : Int} (h : IsLeading cs)
    (hn : Nat.ofDigitChars 10 cs 0 = n) (hfits : n ≤ wordMax)
    (hsize : size.natAbs ≤ 2147483647) :
    ReadsAs (cs ++ 'e' :: powerChars true 1 size) n size := by
  intro negative rest hrest
  have hfraction : readFraction n 0 ('e' :: (powerChars true 1 size ++ rest))
      = readPower n 0 ('e' :: (powerChars true 1 size ++ rest)) := rfl
  rw [List.append_assoc, List.cons_append, readMagnitude_leading h (hn.trans_le hfits)
    (Text.stopsAt_cons rfl _) rfl, hn, hfraction, readPower_exponent n 0 hrest hsize, zero_add,
    Option.map_map]
  rfl

/-- Digits with a point and a power of ten. -/
theorem readsAs_point_power {cs fs : List Char} {n : Nat} {size : Int} (h : IsLeading cs)
    (hfs : fs.all Char.isDigit = true) (hne : fs ≠ [])
    (hn : Nat.ofDigitChars 10 (cs ++ fs) 0 = n) (hfits : n ≤ wordMax)
    (hsize : size.natAbs ≤ 2147483647) :
    ReadsAs (cs ++ '.' :: fs ++ 'e' :: powerChars true 1 size) n (-(fs.length : Int) + size) := by
  intro negative rest hrest
  rw [List.append_assoc, List.append_assoc, List.cons_append, List.cons_append,
    readMagnitude_leading h ((ofDigitChars_le hn).trans hfits) (Text.stopsAt_cons rfl _) rfl,
    readFraction_point hfs hne hn hfits (Text.stopsAt_cons rfl _),
    readPower_exponent n _ hrest hsize, Option.map_map]
  rfl

/-! ## The two layouts -/

theorem all_isDigit_zeros (k : Nat) : (zeros k).all Char.isDigit = true := by
  rw [List.all_eq_true]
  intro c hc
  rw [List.eq_of_mem_replicate hc]
  rfl

theorem ofDigitChars_digits_zeros (n k : Nat) :
    Nat.ofDigitChars 10 (digits n ++ zeros k) 0 = 10 ^ k * n := by
  rw [Nat.ofDigitChars_append, ofDigitChars_digits, zeros, Nat.ofDigitChars_replicate_zero]

theorem ofDigitChars_zeros_digits (n k : Nat) :
    Nat.ofDigitChars 10 (zeros k ++ digits n) 0 = n := by
  rw [Nat.ofDigitChars_append, zeros, Nat.ofDigitChars_replicate_zero, Nat.mul_zero,
    ofDigitChars_digits]

theorem lt_ten_pow_length_digits (n : Nat) : n < 10 ^ (digits n).length :=
  (Nat.length_toDigits_le_iff (by decide) Nat.length_toDigits_pos).mp le_rfl

/-- A whole number that is written out in full. -/
theorem readsAs_whole {n k : Nat} (hzero : n = 0 → k = 0) (hsize : k + (digits n).length ≤ 16) :
    10 ^ (k + 1) * n ≤ wordMax
      ∧ ReadsAs (digits n ++ zeros k ++ ['.', '0']) (10 ^ (k + 1) * n) (-1) := by
  have hleading : IsLeading (digits n ++ zeros k) := by
    rcases Nat.eq_zero_or_pos n with rfl | hn
    · rw [hzero rfl]
      exact ⟨by decide, by decide⟩
    · obtain ⟨d, ds, hds, _⟩ := exists_cons_digits n
      have hhead := head?_digits_ne_zero hn
      refine isLeading_of_head ?_ (by simp [digits_ne_nil]) ?_
      · rw [List.all_append, all_isDigit_digits, all_isDigit_zeros]
        rfl
      · rw [hds] at hhead ⊢
        exact hhead
  have hword : 10 ^ (k + 1) * n ≤ wordMax := by
    have hpower : 10 ^ (k + 1) * 10 ^ (digits n).length ≤ 10 ^ 17 := by
      rw [← Nat.pow_add]
      exact Nat.pow_le_pow_right (by decide) (by omega)
    have hless := Nat.mul_le_mul_left (10 ^ (k + 1)) (lt_ten_pow_length_digits n).le
    exact (hless.trans hpower).trans (by decide)
  have hvalue : Nat.ofDigitChars 10 (digits n ++ zeros k ++ ['0']) 0 = 10 ^ (k + 1) * n := by
    have hone : zeros k ++ ['0'] = zeros (k + 1) := (List.replicate_succ' ..).symm
    rw [List.append_assoc, hone, ofDigitChars_digits_zeros]
  exact ⟨hword, readsAs_point hleading rfl (by decide) hvalue hword⟩

/-- A number below one that is written out in full. -/
theorem readsAs_small {n : Nat} (hfits : n ≤ wordMax) (j : Nat) :
    ReadsAs (['0', '.'] ++ zeros j ++ digits n) n (-((zeros j ++ digits n).length : Int)) := by
  have hfs : (zeros j ++ digits n).all Char.isDigit = true := by
    rw [List.all_append, all_isDigit_zeros, all_isDigit_digits]
    rfl
  have hvalue : Nat.ofDigitChars 10 (['0'] ++ (zeros j ++ digits n)) 0 = n :=
    ofDigitChars_zeros_digits n (j + 1)
  have hzero : IsLeading ['0'] := ⟨by decide, by decide⟩
  have hread := readsAs_point hzero hfs (by simp [digits_ne_nil]) hvalue hfits
  rw [List.append_assoc]
  exact hread

/-- The digits in front of a point that is set into them. -/
theorem isLeading_take {n i : Nat} (hn : 0 < n) (hi : i ≠ 0) : IsLeading ((digits n).take i) := by
  obtain ⟨d, ds, hds, _⟩ := exists_cons_digits n
  obtain ⟨j, rfl⟩ := Nat.exists_eq_succ_of_ne_zero hi
  have hdigits := all_isDigit_digits n
  have hhead := head?_digits_ne_zero hn
  rw [hds] at hdigits hhead ⊢
  refine isLeading_of_head ?_ (List.cons_ne_nil _ _) hhead
  rw [List.all_eq_true] at hdigits ⊢
  exact fun c hc => hdigits c (List.mem_of_mem_take hc)

/-- A number from one on that is written out in full and is not whole. -/
theorem readsAs_split {n i : Nat} (hn : 0 < n) (hfits : n ≤ wordMax) (hi : i ≠ 0)
    (hlong : i < (digits n).length) :
    ReadsAs ((digits n).take i ++ '.' :: (digits n).drop i) n
      (-(((digits n).drop i).length : Int)) := by
  have hvalue : Nat.ofDigitChars 10 ((digits n).take i ++ (digits n).drop i) 0 = n := by
    rw [List.take_append_drop, ofDigitChars_digits]
  have hfs : ((digits n).drop i).all Char.isDigit = true := by
    have hdigits := all_isDigit_digits n
    rw [List.all_eq_true] at hdigits ⊢
    exact fun c hc => hdigits c (List.mem_of_mem_drop hc)
  have hne : (digits n).drop i ≠ [] := by
    rw [ne_eq, List.drop_eq_nil_iff]
    omega
  exact readsAs_point (isLeading_take hn hi) hfs hne hvalue hfits

/-- Digits that are written out in full are read as a word and a negative power. -/
theorem readsAs_positional {n : Nat} {e : Int} (hzero : n = 0 → e = 0) (hfits : n ≤ wordMax)
    (hsize : e + (digits n).length ≤ 16) :
    ∃ word power, power < 0 ∧ word ≤ wordMax
      ∧ ReadsAs (positional true (digits n) e) word power := by
  cases e with
  | ofNat k =>
    simp only [Int.ofNat_eq_natCast] at hsize
    obtain ⟨hword, hread⟩ := readsAs_whole (n := n) (k := k)
      (fun h => by simpa using hzero h) (by omega)
    exact ⟨_, -1, by decide, hword, hread⟩
  | negSucc k =>
    rw [positional]
    split
    · have hpos := List.length_pos_iff.mpr (digits_ne_nil n)
      refine ⟨n, _, ?_, hfits, readsAs_small hfits _⟩
      rw [List.length_append]
      omega
    · have hn : 0 < n := by
        rcases Nat.eq_zero_or_pos n with rfl | hn
        · simpa using hzero rfl
        · exact hn
      refine ⟨n, _, ?_, hfits, readsAs_split hn hfits (by omega) (by omega)⟩
      rw [List.length_drop]
      omega

/-- Digits that are written with a power of ten are read with this power. -/
theorem readsAs_scientific {n : Nat} {e : Int} (hn : 0 < n) (hfits : n ≤ wordMax)
    (hsize : (e + (digits n).length - 1).natAbs ≤ 2147483647) :
    ReadsAs (scientific Layout.json (digits n) (e + (digits n).length - 1)) n e := by
  have hvalue := ofDigitChars_digits n
  have hdigits := all_isDigit_digits n
  have hleading := isLeading_take hn Nat.one_ne_zero
  obtain ⟨d, ds, hds, _⟩ := exists_cons_digits n
  rw [hds] at hvalue hdigits hsize hleading ⊢
  cases ds with
  | nil =>
    have hpower : e + ([d].length : Int) - 1 = e := by simp
    rw [hpower] at hsize ⊢
    exact readsAs_power hleading hvalue hfits hsize
  | cons d' ds =>
    have hfs : (d' :: ds).all Char.isDigit = true :=
      (Bool.and_eq_true_iff.mp hdigits).2
    have hread := readsAs_point_power hleading hfs (List.cons_ne_nil _ _) hvalue hfits hsize
    have hpower : -((d' :: ds).length : Int) + (e + ((d :: d' :: ds).length : Int) - 1) = e := by
      simp only [List.length_cons]
      omega
    rw [hpower] at hread
    exact hread

/-! ## Doubles -/

/-- The magnitude of a finite double is read as a finite double. -/
theorem readsAs_magnitude {b : Binary} (h : b.Finite) :
    ∃ word power, IsRead word power ∧ ReadsAs (Layout.json.magnitude b) word power := by
  have hdigits := hasDigits_shortest h .toEven
  have hread := isRead_shortest h
  have hjson : Layout.json.digits b = shortest .toEven b := rfl
  rw [Layout.magnitude, hjson]
  generalize shortest .toEven b = d at hdigits hread
  obtain ⟨n, e⟩ := d
  obtain ⟨hfits, hzero, hleast, hgreatest, _⟩ := hdigits
  dsimp only at hfits hzero hleast hgreatest hread ⊢
  have hword : n ≤ wordMax := hfits.trans (by decide)
  have hpositional : e + (digits n).length ≤ 16 → ∃ word power, IsRead word power
      ∧ ReadsAs (positional Layout.json.pointZero (digits n) e) word power := by
    intro hsize
    obtain ⟨word, power, hpower, hword, hreads⟩ := readsAs_positional hzero hword hsize
    exact ⟨word, power, isRead_negative hword hpower, hreads⟩
  rcases Nat.eq_zero_or_pos n with rfl | hn
  · obtain rfl := hzero rfl
    exact hpositional (by decide)
  · have hne : ¬n = 0 := by omega
    rw [if_neg hne]
    split
    · next hsize =>
      rw [Bool.and_eq_true, decide_eq_true_eq] at hsize
      have hmost : e + ((digits n).length : Int) - 1 ≤ 15 := of_decide_eq_true hsize.2
      exact hpositional (by omega)
    · have hlength : (digits n).length ≤ 18 := by
        rw [digits, Nat.length_toDigits_le_iff (by decide) (by decide)]
        exact hfits.trans_lt (by decide)
      exact ⟨n, e, hread, readsAs_scientific hn hword (by omega)⟩

/-- The text of a finite double is its magnitude behind its sign. -/
theorem text_of_isFinite {x : Float} (h : isFinite x = true) :
    (Layout.json.text x).toList = (if (Binary.ofFloat x).negative then ['-'] else [])
      ++ Layout.json.magnitude (Binary.ofFloat x) := by
  have hnumber : isNaN x = false := by
    rw [isNaN, h]
    rfl
  have hsign : ((Binary.ofFloat x).negative
      && (Layout.json.signedZero || decide ((Binary.ofFloat x).mantissa ≠ 0)))
      = (Binary.ofFloat x).negative := Bool.and_true _
  simp only [Layout.text, hnumber, Bool.false_eq_true, if_false, hsign, h, if_true,
    String.toList_ofList]

/-- What is read as a number without sign starts with a digit. -/
theorem exists_cons_of_readMagnitude {negative : Bool} {cs : List Char} {read : Json × List Char}
    (h : readMagnitude negative cs = some read) : ∃ c rest, cs = c :: rest ∧ c.isDigit = true := by
  have hne : cs.takeWhile Char.isDigit ≠ [] := by
    intro hnil
    simp [readMagnitude, hnil] at h
  cases cs with
  | nil => exact absurd rfl hne
  | cons c rest =>
    cases hc : c.isDigit with
    | true => exact ⟨c, rest, rfl, hc⟩
    | false => simp [hc] at hne

/-- **The text of a finite double is read as a finite double**, and what follows it is left. -/
theorem exists_readNumber {x : Float} (h : isFinite x = true) :
    ∃ y, isFinite y = true ∧ ∀ rest, EndsNumber rest →
      readNumber ((Layout.json.text x).toList ++ rest) = some (.float y, rest) := by
  obtain ⟨word, power, ⟨y, q, hy, hq⟩, hreads⟩ := readsAs_magnitude (finite_ofFloat h)
  rw [text_of_isFinite h]
  cases hnegative : (Binary.ofFloat x).negative with
  | true =>
    refine ⟨-y, (isFinite_iff _).mpr ⟨q, size?_neg hq⟩, fun rest hrest => ?_⟩
    rw [if_pos rfl, List.append_assoc, List.singleton_append, readNumber, hreads true rest hrest,
      hy]
    rfl
  | false =>
    refine ⟨y, (isFinite_iff _).mpr ⟨q, hq⟩, fun rest hrest => ?_⟩
    have hread := hreads false rest hrest
    obtain ⟨c, cs, hcs, hc⟩ := exists_cons_of_readMagnitude (hread.trans (by rw [hy]; rfl))
    rw [if_neg Bool.false_ne_true, List.nil_append, readNumber]
    · rw [hread, hy]
      rfl
    · intro after heq
      rw [hcs, List.cons.injEq] at heq
      rw [heq.1] at hc
      exact absurd hc (by decide)

/-- What is read as a number starts with a digit or a sign. -/
theorem exists_cons_of_readNumber {cs : List Char} {read : Json × List Char}
    (h : readNumber cs = some read) :
    ∃ c rest, cs = c :: rest ∧ (c.isDigit = true ∨ c = '-') := by
  rw [readNumber.eq_def] at h
  split at h
  · exact ⟨_, _, rfl, .inr rfl⟩
  · obtain ⟨c, rest, hcs, hc⟩ := exists_cons_of_readMagnitude h
    exact ⟨c, rest, hcs, .inl hc⟩

/-- The double that the text of a double is read as. -/
def rereadDouble (x : Float) : Float :=
  match readNumber (Layout.json.text x).toList with
  | some (.float y, _) => y
  | _ => x

/-- The text of a finite double is read wherever a number may end. -/
theorem readNumber_text {x : Float} (h : isFinite x = true) {rest : List Char}
    (hrest : EndsNumber rest) :
    readNumber ((Layout.json.text x).toList ++ rest) = some (.float (rereadDouble x), rest) := by
  obtain ⟨y, _, hread⟩ := exists_readNumber h
  have halone := hread [] endsNumber_nil
  rw [List.append_nil] at halone
  have hreread : rereadDouble x = y := by rw [rereadDouble, halone]
  rw [hreread]
  exact hread rest hrest

/-- A double that is read again is finite. -/
theorem isFinite_rereadDouble {x : Float} (h : isFinite x = true) :
    isFinite (rereadDouble x) = true := by
  obtain ⟨y, hy, hread⟩ := exists_readNumber h
  have halone := hread [] endsNumber_nil
  rw [List.append_nil] at halone
  rw [rereadDouble, halone]
  exact hy

end DualStore.Json
