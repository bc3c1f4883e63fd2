import DualStore.Proofs.DateTexts

/-!
# Date texts in order

Date texts are compared character by character. Their fields have fixed widths and stand from the
year down to the second, so that texts of years with four digits compare as their instants do.

* `Text.append_lt_append`: the first of several parts that differs decides;
* `padded_lt_padded`: numbers with leading zeros;
* `Date.Before`, `ofDay_before`: dates follow their days;
* `secondChars_lt`: the texts of two seconds of local time;
* `HasShortYear`: an instant after 1970 whose local year has four digits;
* `compare_write?`, `write?_mono`: the texts of two such instants compare as their seconds.
-/

namespace DualStore.Text

/-- Where a part of one length comes first, what follows it does not matter. -/
theorem append_lt_append {xs ys : List Char} (hlength : xs.length = ys.length) (h : xs < ys)
    (xs' ys' : List Char) : xs ++ xs' < ys ++ ys' := by
  induction xs generalizing ys with
  | nil =>
    have hys : ys = [] := List.length_eq_zero_iff.mp hlength.symm
    rw [hys] at h
    exact absurd h (List.lt_irrefl [])
  | cons x xs ih =>
    cases ys with
    | nil => exact absurd hlength (by simp)
    | cons y ys =>
      rw [List.cons_append, List.cons_append, List.cons_lt_cons_iff]
      rcases List.cons_lt_cons_iff.mp h with hlt | ⟨heq, hlt⟩
      · exact .inl hlt
      · exact .inr ⟨heq, ih (Nat.succ.inj hlength) hlt⟩

end DualStore.Text

namespace DualStore.Decimal

open Text (isDigit_range)

/-- The first digit counts for as many tens as digits follow. -/
theorem ofDigitChars_cons_eq (c : Char) (cs : List Char) :
    Nat.ofDigitChars 10 (c :: cs) 0
      = 10 ^ cs.length * (c.toNat - 48) + Nat.ofDigitChars 10 cs 0 := by
  rw [Nat.ofDigitChars_cons, Nat.ofDigitChars_eq_ofDigitChars_zero, Nat.mul_zero, Nat.zero_add]
  rfl

/-- A number of so many digits is less than that power of ten. -/
theorem ofDigitChars_lt {cs : List Char} (h : ∀ c ∈ cs, c.isDigit = true) :
    Nat.ofDigitChars 10 cs 0 < 10 ^ cs.length := by
  induction cs with
  | nil => exact Nat.one_pos
  | cons c cs ih =>
    have hrest := ih fun d hd => h d (List.mem_cons_of_mem c hd)
    have hdigit := isDigit_range (h c List.mem_cons_self)
    have hten : 10 ^ cs.length * (c.toNat - 48) ≤ 10 ^ cs.length * 9 :=
      Nat.mul_le_mul_left _ (by omega)
    rw [ofDigitChars_cons_eq, List.length_cons, Nat.pow_succ]
    omega

/-- Numbers of equally many digits are in order as their texts are. -/
theorem lt_of_ofDigitChars_lt {xs ys : List Char} (hxs : ∀ c ∈ xs, c.isDigit = true)
    (hys : ∀ c ∈ ys, c.isDigit = true) (hlength : xs.length = ys.length)
    (h : Nat.ofDigitChars 10 xs 0 < Nat.ofDigitChars 10 ys 0) : xs < ys := by
  induction xs generalizing ys with
  | nil =>
    rw [List.length_eq_zero_iff.mp hlength.symm] at h
    exact absurd h (Nat.lt_irrefl _)
  | cons x xs ih =>
    cases ys with
    | nil => exact absurd hlength (by simp)
    | cons y ys =>
      have hxs' : ∀ c ∈ xs, c.isDigit = true := fun c hc => hxs c (List.mem_cons_of_mem x hc)
      have hys' : ∀ c ∈ ys, c.isDigit = true := fun c hc => hys c (List.mem_cons_of_mem y hc)
      have hlength' : xs.length = ys.length := Nat.succ.inj hlength
      have hx := isDigit_range (hxs x List.mem_cons_self)
      have hy := isDigit_range (hys y List.mem_cons_self)
      rw [ofDigitChars_cons_eq, ofDigitChars_cons_eq, hlength'] at h
      rw [List.cons_lt_cons_iff]
      rcases Nat.lt_trichotomy x.toNat y.toNat with hlt | heq | hgt
      · exact .inl hlt
      · rw [heq] at h
        exact .inr ⟨Char.toNat_inj.mp heq, ih hxs' hys' hlength' (by omega)⟩
      · -- A greater first digit is worth more than all digits that follow.
        have hrest := ofDigitChars_lt hys'
        have hten : 10 ^ ys.length * (y.toNat - 48 + 1) ≤ 10 ^ ys.length * (x.toNat - 48) :=
          Nat.mul_le_mul_left _ (by omega)
        rw [Nat.mul_add, Nat.mul_one] at hten
        omega

end DualStore.Decimal

namespace DualStore.Calendar

/-! ## Numbers with leading zeros -/

/-- A number that has enough digits at the given width is as long as the width. -/
theorem length_padded {width n : Nat} (hwidth : 0 < width) (h : n < 10 ^ width) :
    (padded width n).length = width := by
  have hle := length_padded_le hwidth h
  simp only [padded, List.length_append, List.length_replicate] at hle ⊢
  omega

theorem padded_lt_padded {width m n : Nat} (hwidth : 0 < width) (h : m < n)
    (hn : n < 10 ^ width) : padded width m < padded width n := by
  refine Decimal.lt_of_ofDigitChars_lt (List.all_eq_true.mp (all_isDigit_padded width m))
    (List.all_eq_true.mp (all_isDigit_padded width n)) ?_ ?_
  · rw [length_padded hwidth hn, length_padded hwidth (Nat.lt_trans h hn)]
  · rwa [ofDigitChars_padded, ofDigitChars_padded]

/-- The first field that differs decides. -/
theorem padded_append_lt {width m n : Nat} {rest rest' : List Char} (hwidth : 0 < width)
    (hn : n < 10 ^ width) (h : m < n ∨ m = n ∧ rest < rest') :
    padded width m ++ rest < padded width n ++ rest' := by
  rcases h with hlt | ⟨rfl, hlt⟩
  · have hlength : (padded width m).length = (padded width n).length := by
      rw [length_padded hwidth hn, length_padded hwidth (Nat.lt_trans hlt hn)]
    exact Text.append_lt_append hlength (padded_lt_padded hwidth hlt hn) rest rest'
  · exact List.append_left_lt hlt

theorem cons_lt_cons_self (c : Char) {xs ys : List Char} (h : xs < ys) : c :: xs < c :: ys :=
  List.cons_lt_cons_iff.mpr (.inr ⟨rfl, h⟩)

/-! ## Dates -/

/-- One date lies before another: the first of year, month and day that differs decides. -/
def Date.Before (d e : Date) : Prop :=
  d.year < e.year ∨ d.year = e.year ∧ (d.month < e.month ∨ d.month = e.month ∧ d.day < e.day)

namespace MarchDay

theorem inCycle_range (d : MarchDay) : 0 ≤ d.inCycle ∧ d.inCycle < 146097 := by
  have hyear := d.year_range
  have hday := d.day_range
  simp only [inCycle]
  omega

/-- A later year of a cycle has later days; only a leap year reaches beyond 365 days. -/
theorem inCycle_lt {d e : MarchDay} (h : d.year < e.year) : d.inCycle < e.inCycle := by
  have hday := d.day_range
  have hday' := e.day_range
  have hleap := d.leap
  have hyear := d.year_range
  have hyear' := e.year_range
  simp only [inCycle]
  by_cases hlast : d.day = 365
  · obtain ⟨hfour, hhundred⟩ := hleap hlast
    omega
  · omega

/-- Of two days, the later one is in a later year counted from March or later in the same year. -/
theorem later_cases {d e : MarchDay}
    (h : d.cycle * 146097 + d.inCycle < e.cycle * 146097 + e.inCycle) :
    d.year + d.cycle * 400 < e.year + e.cycle * 400 ∨
      d.year + d.cycle * 400 = e.year + e.cycle * 400 ∧ d.day < e.day := by
  have hyear := d.year_range
  have hyear' := e.year_range
  have hd := d.inCycle_range
  have he := e.inCycle_range
  rcases Int.lt_trichotomy d.cycle e.cycle with hcycle | hcycle | hcycle
  · exact .inl (by omega)
  · rcases Int.lt_trichotomy d.year e.year with hlt | heq | hgt
    · exact .inl (by omega)
    · have hsame : d.year = e.year ∧ d.day < e.day := by
        simp only [inCycle, heq] at h
        exact ⟨heq, by omega⟩
      exact .inr ⟨by omega, hsame.2⟩
    · -- An earlier year of the same cycle only has earlier days.
      have hback := inCycle_lt hgt
      exact absurd h (by omega)
  · exact absurd h (by omega)

/-- A later day has a later date. A year counted from March ends with the first two months of the
next one. -/
theorem date_before {d e : MarchDay}
    (h : d.cycle * 146097 + d.inCycle < e.cycle * 146097 + e.inCycle) : d.date.Before e.date := by
  have hmonth := d.month_range
  have hmonth' := e.month_range
  rcases later_cases h with hyear | ⟨hyear, hday⟩
  · simp only [Date.Before, date]
    split <;> split <;> split <;> split <;> omega
  · have hdef : d.month = (5 * d.day + 2) / 153 := rfl
    have hdef' : e.month = (5 * e.day + 2) / 153 := rfl
    -- January and February belong to the next year, so a later month may be in a later year.
    have hle : d.month ≤ e.month := by omega
    simp only [Date.Before, date, hyear]
    split <;> split <;> split <;> split <;> omega

end MarchDay

/-- **Dates follow their days.** -/
theorem ofDay_before {m n : Int} (h : m < n) : (Date.ofDay m).Before (Date.ofDay n) := by
  obtain ⟨d, hd, hdate⟩ := MarchDay.exists_marchDay m
  obtain ⟨e, he, hdate'⟩ := MarchDay.exists_marchDay n
  rw [hdate, hdate']
  exact MarchDay.date_before (by omega)

theorem year_ofDay_mono {m n : Int} (h : m ≤ n) : (Date.ofDay m).year ≤ (Date.ofDay n).year := by
  rcases Int.lt_or_eq_of_le h with hlt | rfl
  · rcases ofDay_before hlt with hyear | ⟨hyear, _⟩
    · exact Int.le_of_lt hyear
    · exact Int.le_of_eq hyear
  · exact Int.le_refl _

/-! ## Seconds -/

/-- A year of four digits is written without a sign. -/
theorem yearChars_of_short {year : Int} (h : 0 ≤ year) (h' : year ≤ 9999) :
    yearChars year = padded 4 year.toNat := by
  have habs : year.natAbs = year.toNat := by omega
  rw [yearChars, if_neg (by omega), if_neg (by omega), habs]

section Seconds

variable {a b : Int}

/-- The local year of a second has four digits. -/
def ShortSecond (second : Int) : Prop :=
  0 ≤ (Date.ofDay (second / 86400)).year ∧ (Date.ofDay (second / 86400)).year ≤ 9999

theorem length_secondChars (h : ShortSecond a) : (secondChars a).length = 19 := by
  obtain ⟨⟨hmonth, hmonth'⟩, hday, hday'⟩ := ofDay_ranges (a / 86400)
  obtain ⟨clock, hclock⟩ : ∃ clock : Nat, clock = (a % 86400).toNat := ⟨_, rfl⟩
  have hbound : clock < 86400 := by omega
  have htwo : ∀ n : Nat, n < 100 → (padded 2 n).length = 2 :=
    fun n hn => length_padded (by decide) hn
  have hfour : ∀ n : Nat, n < 10000 → (padded 4 n).length = 4 :=
    fun n hn => length_padded (by decide) hn
  have hyear := h.2
  simp only [secondChars, ← hclock, yearChars_of_short h.1 h.2, List.length_append,
    List.length_cons]
  rw [hfour _ (by omega), htwo _ (by omega), htwo _ (by omega), htwo _ (by omega),
    htwo _ (by omega), htwo _ (by omega)]

/-- **The text of a later second comes later.** -/
theorem secondChars_lt (ha : ShortSecond a) (hb : ShortSecond b) (h : a < b) :
    secondChars a < secondChars b := by
  obtain ⟨⟨hmonth, hmonth'⟩, hday, hday'⟩ := ofDay_ranges (b / 86400)
  obtain ⟨⟨hmonthA, _⟩, hdayA, _⟩ := ofDay_ranges (a / 86400)
  have hyears := hb.2
  have hyearsA := ha.1
  simp only [secondChars, yearChars_of_short ha.1 ha.2, yearChars_of_short hb.1 hb.2,
    List.append_assoc, List.cons_append]
  rcases Int.lt_or_eq_of_le (show a / 86400 ≤ b / 86400 by omega) with hlt | heq
  · -- The date decides.
    rcases ofDay_before hlt with hyear | ⟨hyear, hmonths | ⟨hmonths, hdays⟩⟩
    · exact padded_append_lt (by decide) (by omega) (.inl (by omega))
    · rw [hyear]
      refine padded_append_lt (by decide) (by omega) (.inr ⟨rfl, cons_lt_cons_self '-' ?_⟩)
      exact padded_append_lt (by decide) (by omega) (.inl (by omega))
    · rw [hyear, hmonths]
      refine padded_append_lt (by decide) (by omega) (.inr ⟨rfl, cons_lt_cons_self '-' ?_⟩)
      refine padded_append_lt (by decide) (by omega) (.inr ⟨rfl, cons_lt_cons_self '-' ?_⟩)
      exact padded_append_lt (by decide) (by omega) (.inl (by omega))
  · -- The dates are the same, and the time of the day decides.
    obtain ⟨x, hx⟩ : ∃ x : Nat, x = (a % 86400).toNat := ⟨_, rfl⟩
    obtain ⟨y, hy⟩ : ∃ y : Nat, y = (b % 86400).toNat := ⟨_, rfl⟩
    have htime : x < y ∧ y < 86400 := by omega
    rw [← hx, ← hy, heq]
    refine padded_append_lt (by decide) (by omega) (.inr ⟨rfl, cons_lt_cons_self '-' ?_⟩)
    refine padded_append_lt (by decide) (by omega) (.inr ⟨rfl, cons_lt_cons_self '-' ?_⟩)
    refine padded_append_lt (by decide) (by omega) (.inr ⟨rfl, cons_lt_cons_self ' ' ?_⟩)
    have hhours : x / 3600 < y / 3600 ∨ x / 3600 = y / 3600 ∧
        (x / 60 % 60 < y / 60 % 60 ∨ x / 60 % 60 = y / 60 % 60 ∧ x % 60 < y % 60) := by omega
    refine padded_append_lt (by decide) (by omega) (hhours.imp_right fun same => ⟨same.1, ?_⟩)
    refine cons_lt_cons_self ':' (padded_append_lt (by decide) (by omega)
      (same.2.imp_right fun same' => ⟨same'.1, cons_lt_cons_self ':' ?_⟩))
    exact padded_lt_padded (by decide) same'.2 (by omega)

end Seconds

/-! ## Instants -/

/-- The year of an instant in a zone. -/
def localYear (ms : Int) (zone : Zone) : Int :=
  (Date.ofDay ((ms / 1000 + zone.seconds) / 86400)).year

/-- An instant after 1970 whose local year has four digits. -/
def HasShortYear (zone : Zone) (ms : Int) : Prop := 0 < ms ∧ localYear ms zone ≤ 9999

section Instants

variable {zone : Zone} {a b : Int}

/-- The day before 1970 is in 1969. -/
theorem HasShortYear.shortSecond (h : HasShortYear zone a) :
    ShortSecond (a / 1000 + zone.seconds) := by
  have hwithin := zone.within
  have hpos := h.1
  have hearly : (Date.ofDay (-1)).year = 1969 := by decide
  have hyear := year_ofDay_mono (show -1 ≤ (a / 1000 + zone.seconds) / 86400 by omega)
  exact ⟨by omega, h.2⟩

/-- An instant with a year of four digits lies in the calendar. -/
theorem HasShortYear.inCalendar (h : HasShortYear zone a) :
    inCalendar (a / 1000 / 86400) = true := by
  have hwithin := zone.within
  have hpos := h.1
  have hyear := h.2
  have hlate : (Date.ofDay 2932897).year = 10000 := by decide
  have hday : (a / 1000 + zone.seconds) / 86400 < 2932897 := by
    refine Int.not_le.mp fun hge => ?_
    have hmono := year_ofDay_mono hge
    rw [localYear] at hyear
    omega
  have hfirst : firstDay ≤ 0 := by decide
  have hlast : 2932898 ≤ lastDay := by decide
  simp only [Calendar.inCalendar, Bool.and_eq_true, decide_eq_true_eq]
  omega

/-- The text of an instant with a year of four digits. -/
theorem HasShortYear.write?_eq (h : HasShortYear zone a) :
    write? a zone = some (String.ofList (secondChars (a / 1000 + zone.seconds))) := by
  rw [write?, if_pos h.inCalendar]

/-- The text of an instant of an earlier second comes earlier. -/
theorem write?_lt (ha : HasShortYear zone a) (hb : HasShortYear zone b)
    (h : a / 1000 < b / 1000) {s t : String} (hs : write? a zone = some s)
    (ht : write? b zone = some t) : s < t := by
  rw [ha.write?_eq] at hs
  rw [hb.write?_eq] at ht
  rw [← Option.some.inj hs, ← Option.some.inj ht, String.lt_iff, String.toList_ofList,
    String.toList_ofList]
  exact secondChars_lt ha.shortSecond hb.shortSecond (by omega)

/-- Instants of the same second have the same text. -/
theorem write?_congr (h : a / 1000 = b / 1000) : write? a zone = write? b zone := by
  rw [write?, write?, h]

/-- **Date texts compare as their seconds.** -/
theorem compare_write? (ha : HasShortYear zone a) (hb : HasShortYear zone b) {s t : String}
    (hs : write? a zone = some s) (ht : write? b zone = some t) :
    compare s t = compare (a / 1000) (b / 1000) := by
  rcases Int.lt_trichotomy (a / 1000) (b / 1000) with hlt | heq | hgt
  · rw [Int.compare_eq_lt.mpr hlt]
    exact compareOfLessAndEq_eq_lt.mpr (write?_lt ha hb hlt hs ht)
  · rw [write?_congr heq, ht] at hs
    rw [Option.some.inj hs, heq, Std.ReflOrd.compare_self, Std.ReflOrd.compare_self]
  · rw [Int.compare_eq_gt.mpr hgt, Std.OrientedOrd.eq_swap (a := s)]
    exact congrArg Ordering.swap (compareOfLessAndEq_eq_lt.mpr (write?_lt hb ha hgt ht hs))

theorem HasShortYear.length_text (h : HasShortYear zone a) {s : String}
    (hs : write? a zone = some s) : s.length = 19 := by
  rw [h.write?_eq] at hs
  rw [← Option.some.inj hs, String.length_ofList, length_secondChars h.shortSecond]

/-- An instant that comes earlier has a short year if the later one has. -/
theorem HasShortYear.of_le (hb : HasShortYear zone b) (ha : 0 < a) (h : a ≤ b) :
    HasShortYear zone a :=
  ⟨ha, Int.le_trans (year_ofDay_mono (by omega)) hb.2⟩

/-- **The texts of two instants are in the order of the instants.** They are equally long, and equal
exactly if the instants are in the same second. -/
theorem write?_mono (hb : HasShortYear zone b) (hpos : 0 < a) (h : a ≤ b) :
    ∃ s t, write? a zone = some s ∧ write? b zone = some t ∧ s.length = t.length ∧ s ≤ t ∧
      (s = t ↔ a / 1000 = b / 1000) := by
  have ha := hb.of_le hpos h
  refine ⟨_, _, ha.write?_eq, hb.write?_eq, ?_, ?_, ?_⟩
  · rw [ha.length_text ha.write?_eq, hb.length_text hb.write?_eq]
  · rcases Int.lt_or_eq_of_le (show a / 1000 ≤ b / 1000 by omega) with hlt | heq
    · exact String.not_lt.mp (String.lt_asymm (write?_lt ha hb hlt ha.write?_eq hb.write?_eq))
    · refine String.not_lt.mp ?_
      rw [heq]
      exact String.lt_irrefl _
  · constructor
    · intro htext
      have hcompare := compare_write? ha hb ha.write?_eq hb.write?_eq
      rw [htext, Std.ReflOrd.compare_self] at hcompare
      exact Int.compare_eq_eq.mp hcompare.symm
    · intro hsecond
      rw [hsecond]

end Instants

end DualStore.Calendar
