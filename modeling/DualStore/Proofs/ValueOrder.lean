import Mathlib.Data.Prod.Lex
import Mathlib.Data.String.Basic
import DualStore.Document.Pipeline
import DualStore.Proofs.SameValues

/-!
# Order of values

Values are ordered by their types, and within a type by their numbers and texts. Two integers of 64
bits are compared exactly and all other numbers as doubles, so that the order is that of places in
a line wherever one of the two ways is enough.

* `place`: the place of a value, by what its numbers count as; `exact`, `rounded`;
* `sortOrder_eq_compare`: values are ordered by their places as soon as numbers are;
* `sortOrder_exact`, `sortOrder_rounded`: the two ways;
* `sortOrder_swap`, `place_rounded_le`: the other way round, and what rounding keeps;
* `level_with_both`: a double between two integers that equals both;
* `order_of_values`: the main statement;
* `equal_to_unequal`: a double that equals two integers.
-/

namespace DualStore.Document

open Json Decimal

/-! ## Places -/

/-- The places that values can have: a type comes first, within a type a number, then a text. -/
abbrev Place := ℕ ×ₗ ℚ ×ₗ String

/-- The place of a value, or of a missing one, among all values: nothing and null first, then
numbers, texts, truth values and all the rest. Within numbers it is by what they count as. -/
def place (number : Json → ℚ) : Option Json → Place
  | none => toLex (0, toLex (0, ""))
  | some .null => toLex (0, toLex (0, ""))
  | some (.int n) => toLex (1, toLex (number (.int n), ""))
  | some (.float x) => toLex (1, toLex (number (.float x), ""))
  | some (.str s) => toLex (2, toLex (0, s))
  | some (.bool b) => toLex (3, toLex ((b.toNat : ℚ), ""))
  | some (.arr _) => toLex (4, toLex (0, ""))
  | some (.obj _) => toLex (4, toLex (0, ""))

/-- The number that a number is as a double. -/
def rounded (v : Json) : ℚ := (v.asFloat?.bind value?).getD 0

/-- The number that a number is: an integer is not rounded. -/
def exact : Json → ℚ
  | .int n => n
  | v => rounded v

theorem rank_place (number : Json → ℚ) (v : Option Json) :
    (ofLex (place number v)).1 = rank v := by
  cases v with
  | none => rfl
  | some x => cases x <;> rfl

/-- Values of different types are at different places. -/
theorem compare_place (number : Json → ℚ) (a b : Option Json) :
    compare (place number a) (place number b) = (compare (rank a) (rank b)).then
      (compare (ofLex (place number a)).2 (ofLex (place number b)).2) := by
  rw [← rank_place number a, ← rank_place number b]
  rfl

theorem compareValues_of_rank_ne {x y : Json} (h : rank (some x) ≠ rank (some y)) :
    compareValues x y = none := by
  cases x <;> cases y <;> simp_all [rank, compareValues, compareNumbers, asInt64?, asFloat?]

/-- Values of different types are ordered by their types. -/
theorem sortOrder_of_rank_ne {a b : Option Json} (h : rank a ≠ rank b) :
    sortOrder a b = compare (rank a) (rank b) := by
  cases a with
  | none => cases b <;> rfl
  | some x =>
    cases b with
    | none => rfl
    | some y => rw [sortOrder, compareValues_of_rank_ne h, Option.getD_none]

theorem sortOrder_bools (number : Json → ℚ) (b c : Bool) :
    sortOrder (some (.bool b)) (some (.bool c))
      = compare (place number (some (.bool b))) (place number (some (.bool c))) := by
  cases b <;> cases c <;> rfl

theorem place_number {number : Json → ℚ} {x : Json} (h : isNumber x = true) :
    place number (some x) = toLex (1, toLex (number x, "")) := by
  cases x <;> first | rfl | cases h

theorem sortOrder_numbers {number : Json → ℚ} {x y : Json} (hx : isNumber x = true)
    (hy : isNumber y = true) (h : compareNumbers x y = some (compare (number x) (number y))) :
    sortOrder (some x) (some y) = compare (place number (some x)) (place number (some y)) := by
  have hvalues : compareValues x y = compareNumbers x y := by
    cases x <;> first | rfl | cases hx
  have hplaces : compare (place number (some x)) (place number (some y))
      = (compare (number x) (number y)).then .eq := by
    rw [place_number hx, place_number hy]
    rfl
  rw [sortOrder, hvalues, h, hplaces, Option.getD_some, Ordering.then_eq]

/-- Values are ordered by their places as soon as numbers are compared by what they count as. -/
theorem sortOrder_eq_compare {number : Json → ℚ} {a b : Option Json}
    (h : ∀ x ∈ a, ∀ y ∈ b, isNumber x = true → isNumber y = true →
      compareNumbers x y = some (compare (number x) (number y))) :
    sortOrder a b = compare (place number a) (place number b) := by
  by_cases hrank : rank a = rank b
  · rcases a with _ | x <;> rcases b with _ | y
    · rfl
    · cases y <;> rfl
    · cases x <;> rfl
    · have hnumbers := h x rfl y rfl
      cases x <;> cases y <;> first
        | exact sortOrder_numbers rfl rfl (hnumbers rfl rfl)
        | exact sortOrder_bools number _ _
        | rfl
        | cases hrank
  · rw [sortOrder_of_rank_ne hrank, compare_place]
    cases hcompare : compare (rank a) (rank b) with
    | eq => exact absurd (compare_eq_iff_eq.mp hcompare) hrank
    | _ => rfl

/-! ## Integers of 64 bits -/

/-- Whether a field is an integer of 64 bits with sign if it is a number at all. -/
def HasInt64 (v : Option Json) : Prop := ∀ x ∈ v, isNumber x = true → x.asInt64?.isSome = true

instance (v : Option Json) : Decidable (HasInt64 v) :=
  inferInstanceAs (Decidable (∀ x ∈ v, isNumber x = true → x.asInt64?.isSome = true))

theorem compareNumbers_int64 {x y : Json} {m n : Int} (hx : x.asInt64? = some m)
    (hy : y.asInt64? = some n) : compareNumbers x y = some (compare m n) := by
  rw [compareNumbers, hx, hy]

theorem eq_int_of_asInt64? {x : Json} {m : Int} (h : x.asInt64? = some m) :
    x = .int m ∧ fitsInt64 m = true := by
  cases x with
  | int n =>
    rw [asInt64?] at h
    split_ifs at h with hfits
    cases h
    exact ⟨rfl, hfits⟩
  | _ => cases h

theorem compare_intCast (m n : Int) : compare (m : ℚ) (n : ℚ) = compare m n := by
  rcases lt_trichotomy m n with h | rfl | h
  · rw [compare_lt_iff_lt.mpr h, compare_lt_iff_lt.mpr (Int.cast_lt.mpr h)]
  · rw [compare_eq_iff_eq.mpr rfl, compare_eq_iff_eq.mpr rfl]
  · rw [compare_gt_iff_gt.mpr h, compare_gt_iff_gt.mpr (Int.cast_lt.mpr h)]

/-- Values whose numbers are integers of 64 bits are ordered by their exact places. -/
theorem sortOrder_exact {a b : Option Json} (ha : HasInt64 a) (hb : HasInt64 b) :
    sortOrder a b = compare (place exact a) (place exact b) := by
  refine sortOrder_eq_compare fun x hx y hy hxnumber hynumber => ?_
  obtain ⟨m, hm⟩ := Option.isSome_iff_exists.mp (ha x hx hxnumber)
  obtain ⟨n, hn⟩ := Option.isSome_iff_exists.mp (hb y hy hynumber)
  obtain ⟨rfl, -⟩ := eq_int_of_asInt64? hm
  obtain ⟨rfl, -⟩ := eq_int_of_asInt64? hn
  rw [compareNumbers_int64 hm hn, exact, exact, compare_intCast]

/-! ## Numbers as doubles -/

theorem rounded_int {n : Int} (h : (Json.int n).IsValue) :
    rounded (.int n) = (nearestInt n : ℚ) := by
  obtain ⟨hleast, hless⟩ := h.int_range
  rw [rounded, asFloat?, Option.bind_some, value?_ofInt hleast hless, Option.getD_some]

theorem value?_asFloat? {x : Json} (h : x.IsValue) (hnumber : isNumber x = true) :
    ∃ d, x.asFloat? = some d ∧ value? d = some (rounded x) := by
  cases x with
  | int n =>
    obtain ⟨hleast, hless⟩ := h.int_range
    exact ⟨_, rfl, by rw [rounded_int h, value?_ofInt hleast hless]⟩
  | float d =>
    obtain ⟨p, hp⟩ := h.value?_float
    exact ⟨d, rfl, by rw [rounded, asFloat?, Option.bind_some, hp, Option.getD_some]⟩
  | _ => simp [isNumber] at hnumber

theorem compareNumbers_rounded {x y : Json} (hx : x.IsValue) (hy : y.IsValue)
    (hxnumber : isNumber x = true) (hynumber : isNumber y = true)
    (h : x.asInt64? = none ∨ y.asInt64? = none) :
    compareNumbers x y = some (compare (rounded x) (rounded y)) := by
  obtain ⟨d, hd, hdvalue⟩ := value?_asFloat? hx hxnumber
  obtain ⟨e, he, hevalue⟩ := value?_asFloat? hy hynumber
  rw [compareNumbers]
  split
  · simp_all
  · rw [hd, he]
    exact compareFloats_eq hdvalue hevalue

/-- Values of which not both are integers of 64 bits are ordered by their rounded places. -/
theorem sortOrder_rounded {a b : Option Json} (ha : ∀ x ∈ a, x.IsValue) (hb : ∀ y ∈ b, y.IsValue)
    (h : a.bind asInt64? = none ∨ b.bind asInt64? = none) :
    sortOrder a b = compare (place rounded a) (place rounded b) := by
  refine sortOrder_eq_compare fun x hx y hy hxnumber hynumber => ?_
  rw [Option.mem_def] at hx hy
  rw [hx, hy, Option.bind_some, Option.bind_some] at h
  exact compareNumbers_rounded (ha x hx) (hb y hy) hxnumber hynumber h

/-! ## The two ways together -/

section Together

variable {a b c : Option Json} {m n : Int}

theorem eq_int_of_bind (h : a.bind asInt64? = some m) :
    a = some (.int m) ∧ fitsInt64 m = true := by
  obtain ⟨x, rfl, hx⟩ := Option.bind_eq_some_iff.mp h
  obtain ⟨rfl, hfits⟩ := eq_int_of_asInt64? hx
  exact ⟨rfl, hfits⟩

theorem sortOrder_ints (ha : a.bind asInt64? = some m) (hb : b.bind asInt64? = some n) :
    sortOrder a b = compare m n := by
  obtain ⟨rfl, -⟩ := eq_int_of_bind ha
  obtain ⟨rfl, -⟩ := eq_int_of_bind hb
  have hvalues : compareValues (.int m) (.int n) = some (compare m n) := compareNumbers_int64 ha hb
  rw [sortOrder, hvalues, Option.getD_some]

/-- Values are ordered the other way round the other way. -/
theorem sortOrder_swap (ha : ∀ x ∈ a, x.IsValue) (hb : ∀ y ∈ b, y.IsValue) :
    sortOrder b a = (sortOrder a b).swap := by
  cases hm : a.bind asInt64? with
  | none =>
    rw [sortOrder_rounded ha hb (.inl hm), sortOrder_rounded hb ha (.inr hm)]
    exact Std.OrientedOrd.eq_swap
  | some m =>
    cases hn : b.bind asInt64? with
    | none =>
      rw [sortOrder_rounded ha hb (.inr hn), sortOrder_rounded hb ha (.inl hn)]
      exact Std.OrientedOrd.eq_swap
    | some n =>
      rw [sortOrder_ints hm hn, sortOrder_ints hn hm]
      exact Std.OrientedOrd.eq_swap

/-- Rounding keeps the order of integers, so that rounded places never change sides. -/
theorem place_rounded_le (ha : ∀ x ∈ a, x.IsValue) (hb : ∀ y ∈ b, y.IsValue)
    (h : sortOrder a b ≠ .gt) : place rounded a ≤ place rounded b := by
  by_cases hints : a.bind asInt64? = none ∨ b.bind asInt64? = none
  · rw [sortOrder_rounded ha hb hints] at h
    exact compare_le_iff_le.mp h
  · rw [not_or, ← ne_eq, ← ne_eq, Option.ne_none_iff_exists', Option.ne_none_iff_exists'] at hints
    obtain ⟨⟨m, hm⟩, n, hn⟩ := hints
    rw [sortOrder_ints hm hn, compare_le_iff_le] at h
    obtain ⟨rfl, -⟩ := eq_int_of_bind hm
    obtain ⟨rfl, -⟩ := eq_int_of_bind hn
    have hnearest : (nearestInt m : ℚ) ≤ nearestInt n := Int.cast_le.mpr (nearestInt_mono h)
    rw [place, place, rounded_int (ha _ rfl), rounded_int (hb _ rfl)]
    refine Prod.Lex.toLex_le_toLex.mpr (.inr ⟨rfl, Prod.Lex.toLex_le_toLex.mpr ?_⟩)
    exact hnearest.lt_or_eq.imp_right fun heq => ⟨heq, le_rfl⟩

/-- What is at the place of a number is a number that counts as much. -/
theorem number_of_place {number : Json → ℚ} {p : ℚ}
    (h : place number a = toLex (1, toLex (p, ""))) :
    ∃ x, a = some x ∧ isNumber x = true ∧ number x = p := by
  have hrank := rank_place number a
  rw [h] at hrank
  rcases a with _ | x
  · cases hrank
  · have hnumber : isNumber x = true := by
      cases x <;> first | rfl | cases hrank
    rw [place_number hnumber] at h
    exact ⟨x, rfl, hnumber, congrArg (fun place => (ofLex (ofLex place).2).1) h⟩

theorem isValue_of_some {x : Json} (h : x.IsValue) : ∀ y ∈ some x, y.IsValue := by
  simpa using h

/-- A double that two integers are rounded to stands level with both of them. -/
theorem level_with_both {y : Json} (hmvalue : (Json.int m).IsValue) (hyvalue : y.IsValue)
    (hnvalue : (Json.int n).IsValue) (hm : fitsInt64 m = true) (hn : fitsInt64 n = true)
    (hless : n < m) (hnumber : isNumber y = true) (hy : y.asInt64? = none)
    (hmy : rounded (.int m) = rounded y) (hny : rounded (.int n) = rounded y) :
    sortOrder (some (.int m)) (some y) ≠ .gt ∧ sortOrder (some y) (some (.int n)) ≠ .gt
      ∧ sortOrder (some (.int m)) (some (.int n)) = .gt := by
  have hm' : (some (Json.int m)).bind asInt64? = some m := if_pos hm
  have hn' : (some (Json.int n)).bind asInt64? = some n := if_pos hn
  rw [sortOrder_rounded (isValue_of_some hmvalue) (isValue_of_some hyvalue) (.inr hy),
    sortOrder_rounded (isValue_of_some hyvalue) (isValue_of_some hnvalue) (.inl hy),
    sortOrder_ints hm' hn', compare_le_iff_le, compare_le_iff_le, compare_gt_iff_gt,
    place_number hnumber, place, place, hmy, hny]
  exact ⟨le_rfl, le_rfl, hless⟩

/-- Values that are in order one after the other, but not the last behind the first, are at most
compared exactly at the ends. -/
theorem ints_of_out_of_order (ha : ∀ x ∈ a, x.IsValue) (hb : ∀ y ∈ b, y.IsValue)
    (hc : ∀ z ∈ c, z.IsValue) (hab : sortOrder a b ≠ .gt) (hbc : sortOrder b c ≠ .gt)
    (hac : sortOrder a c = .gt) :
    ∃ m n, a.bind asInt64? = some m ∧ b.bind asInt64? = none ∧ c.bind asInt64? = some n
      ∧ n < m := by
  have hplaces := (place_rounded_le ha hb hab).trans (place_rounded_le hb hc hbc)
  by_cases hints : a.bind asInt64? = none ∨ c.bind asInt64? = none
  · rw [sortOrder_rounded ha hc hints, compare_gt_iff_gt] at hac
    exact absurd hplaces hac.not_ge
  · rw [not_or, ← ne_eq, ← ne_eq, Option.ne_none_iff_exists', Option.ne_none_iff_exists'] at hints
    obtain ⟨⟨m, hm⟩, n, hn⟩ := hints
    have hless : n < m := compare_gt_iff_gt.mp (sortOrder_ints hm hn ▸ hac)
    refine ⟨m, n, hm, ?_, hn, hless⟩
    by_contra hsome
    obtain ⟨k, hk⟩ := Option.ne_none_iff_exists'.mp hsome
    rw [sortOrder_ints hm hk, compare_le_iff_le] at hab
    rw [sortOrder_ints hk hn, compare_le_iff_le] at hbc
    exact absurd (hab.trans hbc) hless.not_ge

/-- **The order of values.** Swapping two values reverses their order. Three values are in order one
after the other although the first stands behind the last only where the outer two are distinct
integers of 64 bits, the greater one first, and the middle one is a number of another form to which
both of them are rounded as doubles. -/
theorem order_of_values (ha : ∀ x ∈ a, x.IsValue) (hb : ∀ y ∈ b, y.IsValue)
    (hc : ∀ z ∈ c, z.IsValue) :
    sortOrder b a = (sortOrder a b).swap
      ∧ (sortOrder a b ≠ .gt ∧ sortOrder b c ≠ .gt ∧ sortOrder a c = .gt ↔
        ∃ m n y, a = some (.int m) ∧ b = some y ∧ c = some (.int n) ∧ fitsInt64 m = true
          ∧ fitsInt64 n = true ∧ n < m ∧ isNumber y = true ∧ y.asInt64? = none
          ∧ rounded (.int m) = rounded y ∧ rounded (.int n) = rounded y) := by
  refine ⟨sortOrder_swap ha hb, ?_, ?_⟩
  · rintro ⟨hab, hbc, hac⟩
    obtain ⟨m, n, hm, hmiddle, hn, hless⟩ := ints_of_out_of_order ha hb hc hab hbc hac
    have hca : sortOrder c a ≠ .gt := by
      rw [sortOrder_ints hn hm, compare_le_iff_le]
      exact hless.le
    -- The rounded places ascend from the first value to the last one and back again.
    have hleft := place_rounded_le ha hb hab
    have hright := place_rounded_le hb hc hbc
    have hback := place_rounded_le hc ha hca
    have hfirst := hleft.antisymm (hright.trans hback)
    have hlast := (hback.trans hleft).antisymm hright
    obtain ⟨rfl, hmfits⟩ := eq_int_of_bind hm
    obtain ⟨rfl, hnfits⟩ := eq_int_of_bind hn
    obtain ⟨y, rfl, hnumber, hmy⟩ := number_of_place hfirst.symm
    obtain ⟨_, hy, -, hny⟩ := number_of_place hlast.symm
    cases hy
    exact ⟨m, n, y, rfl, rfl, rfl, hmfits, hnfits, hless, hnumber, hmiddle, hmy.symm, hny.symm⟩
  · rintro ⟨m, n, y, rfl, rfl, rfl, hm, hn, hless, hnumber, hy, hmy, hny⟩
    exact level_with_both (ha _ rfl) (hb _ rfl) (hc _ rfl) hm hn hless hnumber hy hmy hny

/-- An integer, the double that equals it, and an integer beyond those with a sign: they are in
order wherever neighbours are. -/
theorem order_of_values_unsigned :
    let a := some (Json.int 2)
    let b := some (Json.float (Float.ofInt 2))
    let c := some (Json.int (2 ^ 63))
    sortOrder b a = (sortOrder a b).swap
      ∧ ¬(sortOrder a b ≠ .gt ∧ sortOrder b c ≠ .gt ∧ sortOrder a c = .gt) := by
  intro a b c
  have ha : (Json.int 2).IsValue := ⟨0, by decide⟩
  have hb : (Json.float (Float.ofInt 2)).IsValue := ⟨0, by decide⟩
  have hc : (Json.int (2 ^ 63)).IsValue := ⟨0, by decide⟩
  obtain ⟨hswap, hiff⟩ :=
    order_of_values (isValue_of_some ha) (isValue_of_some hb) (isValue_of_some hc)
  refine ⟨hswap, fun h => ?_⟩
  obtain ⟨m, n, y, -, -, hz, -, hn, -⟩ := hiff.mp h
  obtain rfl : 2 ^ 63 = n := Json.int.inj (Option.some.inj hz)
  exact absurd hn (by decide)

/-- The double of 2^53 equals two integers, of which one is greater. -/
theorem equal_to_unequal :
    let a := some (Json.int (2 ^ 53 + 1))
    let b := some (Json.float (Float.ofInt (2 ^ 53)))
    let c := some (Json.int (2 ^ 53))
    sortOrder a b ≠ .gt ∧ sortOrder b c ≠ .gt ∧ sortOrder a c = .gt := by
  have ha : (Json.int (2 ^ 53 + 1)).IsValue := ⟨0, by decide⟩
  have hb : (Json.float (Float.ofInt (2 ^ 53))).IsValue := ⟨0, by decide +kernel⟩
  have hc : (Json.int (2 ^ 53)).IsValue := ⟨0, by decide⟩
  have hnearest : nearestInt (2 ^ 53 + 1) = nearestInt (2 ^ 53) := by decide +kernel
  have hrounded : rounded (.int (2 ^ 53 + 1)) = rounded (.int (2 ^ 53)) := by
    rw [rounded_int ha, rounded_int hc, hnearest]
  exact level_with_both ha hb hc (by decide) (by decide) (by decide) rfl rfl hrounded rfl

end Together

end DualStore.Document
