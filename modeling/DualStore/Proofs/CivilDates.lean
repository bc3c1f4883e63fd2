import DualStore.Calendar.Civil

/-!
# Days and dates

The date of a day exists in the calendar, and the number of its day is the day that it was made for.

* `MarchDay`: a day as a cycle of 400 years, a year in it and a day of the year, counted from March;
* `exists_marchDay`: every day is such a day, and the two divisions by which years are found give
  its year;
* `MarchDay.month_range`, `MarchDay.day_range`, `MarchDay.isValid_date`: its date exists;
* `toDay_ofDay`, `isValid_ofDay`: the date of a day.
-/

namespace DualStore.Calendar

/-- A day: the cycle of 400 years, the year of the cycle, and the day of the year, all counted from
March on. Only a year that ends in a leap day has a day 365. -/
structure MarchDay where
  cycle : Int
  year : Int
  day : Int
  year_range : 0 ≤ year ∧ year < 400
  day_range : 0 ≤ day ∧ day ≤ 365
  leap : day = 365 → year % 4 = 3 ∧ (year % 100 = 99 → year = 399)

namespace MarchDay

/-- The number of the day in its cycle. -/
def inCycle (d : MarchDay) : Int := 365 * d.year + d.year / 4 - d.year / 100 + d.day

def month (d : MarchDay) : Int := (5 * d.day + 2) / 153

def date (d : MarchDay) : Date :=
  let month := if d.month < 10 then d.month + 3 else d.month - 9
  let year := d.year + d.cycle * 400
  ⟨if month ≤ 2 then year + 1 else year, month, d.day - (153 * d.month + 2) / 5 + 1⟩

theorem month_range (d : MarchDay) : 0 ≤ d.month ∧ d.month ≤ 11 := by
  have hday := d.day_range
  unfold month
  omega

/-- A day of a cycle as a century, a group of four years and a rest of days. The last century has a
day more than the others. -/
theorem exists_parts {n : Int} (hn : 0 ≤ n ∧ n < 146097) :
    ∃ c q s, n = 36524 * c + 1461 * q + s ∧ (0 ≤ c ∧ c ≤ 3) ∧ (0 ≤ q ∧ q ≤ 24) ∧
      (0 ≤ s ∧ s ≤ 1460) ∧ (q = 24 → s = 1460 → c = 3) := by
  by_cases hend : n = 146096
  · exact ⟨3, 24, 1460, by omega⟩
  · exact ⟨n / 36524, n % 36524 / 1461, n % 36524 % 1461, by omega⟩

/-- The divisions of the calendar find the year of a day of a cycle. -/
theorem yearOf_parts {n c q s : Int} (hn : n = 36524 * c + 1461 * q + s) (hc : 0 ≤ c ∧ c ≤ 3)
    (hq : 0 ≤ q ∧ q ≤ 24) (hs : 0 ≤ s ∧ s ≤ 1460) (hlast : q = 24 → s = 1460 → c = 3) :
    (n - n / 1460 + n / 36524 - n / 146096) / 365 = 100 * c + 4 * q + min 3 (s / 365) := by
  have hcentury : n / 36524 - n / 146096 = c := by
    by_cases hend : q = 24 ∧ s = 1460
    · have hthree := hlast hend.1 hend.2
      omega
    · have hsmall : 1461 * q + s < 36524 := by omega
      have hfirst : n / 36524 = c := by omega
      have hlong : n / 146096 = 0 := by omega
      omega
  -- The groups of four years may be counted one too many, but that takes no year away.
  have hgroup : n / 1460 = 25 * c + q + (if 1460 ≤ 24 * c + q + s then 1 else 0) := by
    split <;> omega
  have hsum : n - n / 1460 + n / 36524 - n / 146096
      = 365 * (100 * c + 4 * q) + (s - if 1460 ≤ 24 * c + q + s then 1 else 0) := by
    omega
  rw [hsum]
  split <;> omega

/-- A day of a cycle as a day of a year counted from March. -/
theorem exists_ofParts (cycle : Int) {c q s : Int} (hc : 0 ≤ c ∧ c ≤ 3) (hq : 0 ≤ q ∧ q ≤ 24)
    (hs : 0 ≤ s ∧ s ≤ 1460) (hlast : q = 24 → s = 1460 → c = 3) :
    ∃ d : MarchDay, d.cycle = cycle ∧ d.inCycle = 36524 * c + 1461 * q + s ∧
      d.year = 100 * c + 4 * q + min 3 (s / 365) := by
  obtain ⟨k, hk⟩ : ∃ k, k = min 3 (s / 365) := ⟨_, rfl⟩
  rw [← hk]
  have hkrange : 0 ≤ k ∧ k ≤ 3 := by omega
  have hday : 0 ≤ s - 365 * k ∧ s - 365 * k ≤ 365 := by omega
  have hend : s - 365 * k = 365 → k = 3 ∧ s = 1460 := by omega
  clear hk
  have hfour : (100 * c + 4 * q + k) / 4 = 25 * c + q := by omega
  have hhundred : (100 * c + 4 * q + k) / 100 = c := by omega
  have hyear : 0 ≤ 100 * c + 4 * q + k ∧ 100 * c + 4 * q + k < 400 := by omega
  have hleap : s - 365 * k = 365 → (100 * c + 4 * q + k) % 4 = 3 ∧
      ((100 * c + 4 * q + k) % 100 = 99 → 100 * c + 4 * q + k = 399) := by
    intro h
    obtain ⟨hthree, hlong⟩ := hend h
    have hmod : (100 * c + 4 * q + k) % 100 = 4 * q + k := by omega
    refine ⟨by omega, fun h99 => ?_⟩
    have hgroup : q = 24 := by omega
    have hcentury := hlast hgroup hlong
    omega
  refine ⟨⟨cycle, 100 * c + 4 * q + k, s - 365 * k, hyear, hday, hleap⟩, rfl, ?_, rfl⟩
  simp only [inCycle, hfour, hhundred]
  omega

/-- Every day is a day of a year counted from March, and that year is what the divisions find. -/
theorem exists_inCycle {n : Int} (hn : 0 ≤ n ∧ n < 146097) (cycle : Int) :
    ∃ d : MarchDay, d.cycle = cycle ∧ d.inCycle = n ∧
      d.year = (n - n / 1460 + n / 36524 - n / 146096) / 365 := by
  obtain ⟨c, q, s, hparts, hc, hq, hs, hlast⟩ := exists_parts hn
  obtain ⟨d, hcycle, hin, hyear⟩ := exists_ofParts cycle hc hq hs hlast
  refine ⟨d, hcycle, ?_, ?_⟩
  · rw [hin, hparts]
  · rw [hyear, yearOf_parts hparts hc hq hs hlast]

/-- The date of every day is the date of a day of a year counted from March. -/
theorem exists_marchDay (n : Int) :
    ∃ d : MarchDay, n + 719468 = d.cycle * 146097 + d.inCycle ∧ Date.ofDay n = d.date := by
  have hrange : 0 ≤ (n + 719468) % 146097 ∧ (n + 719468) % 146097 < 146097 := by omega
  obtain ⟨d, hcycle, hin, hyear⟩ := exists_inCycle hrange ((n + 719468) / 146097)
  refine ⟨d, ?_, ?_⟩
  · rw [hcycle, hin]
    omega
  · have hday : d.day = (n + 719468) % 146097 - (365 * d.year + d.year / 4 - d.year / 100) := by
      rw [← hin, inCycle]
      omega
    simp only [Date.ofDay, date, month, ← hyear, ← hday, ← hcycle]
    rfl

/-- The number of days of the months since March. -/
theorem date_day_range (d : MarchDay) : 1 ≤ d.date.day ∧ d.date.day ≤ 31 := by
  have hday := d.day_range
  simp only [date, month]
  omega

/-- The number of the day that a date is made for is the number of the date. -/
theorem toDay_date (d : MarchDay) : d.date.toDay = d.cycle * 146097 + d.inCycle - 719468 := by
  have hmonth := d.month_range
  have hyear := d.year_range
  have hmod : (d.year + d.cycle * 400) % 400 = d.year := by omega
  have hdiv : (d.year + d.cycle * 400) / 400 = d.cycle := by omega
  by_cases h : d.month < 10
  · have hlate : ¬d.month + 3 ≤ 2 := by omega
    have hback : d.month + 3 - 3 = d.month := by omega
    simp only [date, Date.toDay, if_pos h, if_neg hlate, hback, hmod, hdiv, inCycle]
    omega
  · have hearly : d.month - 9 ≤ 2 := by omega
    have hback : d.month - 9 + 9 = d.month := by omega
    have hbefore : d.year + d.cycle * 400 + 1 - 1 = d.year + d.cycle * 400 := by omega
    simp only [date, Date.toDay, if_neg h, if_pos hearly, hback, hbefore, hmod, hdiv, inCycle]
    omega

/-- The month has the day. Only February asks for the year, whose leap day is its day 365. -/
theorem day_le_daysInMonth (d : MarchDay) : d.date.day ≤ daysInMonth d.date.year d.date.month := by
  have hday := d.day_range
  have hdef : d.month = (5 * d.day + 2) / 153 := rfl
  have hmonth := d.month_range
  have hcases : d.month = 11 ∨ d.month ≤ 10 := by omega
  rcases hcases with h | h
  · have hyear := d.year_range
    have hdate : d.date = ⟨d.year + d.cycle * 400 + 1, 2, d.day - 337 + 1⟩ := by
      simp only [date, h]
      rfl
    rw [hdate]
    simp only [daysInMonth, if_true]
    by_cases hlast : d.day = 365
    · obtain ⟨hfour, hhundred⟩ := d.leap hlast
      have hleap : isLeap (d.year + d.cycle * 400 + 1) = true := by
        simp only [isLeap, Bool.and_eq_true, Bool.or_eq_true, decide_eq_true_eq]
        refine ⟨by omega, ?_⟩
        by_cases h99 : d.year % 100 = 99
        · have hend := hhundred h99
          exact .inr (by omega)
        · exact .inl (by omega)
      rw [if_pos hleap]
      omega
    · split <;> omega
  · have hlong : ∀ m, m ≠ 2 → m ≠ 4 → m ≠ 6 → m ≠ 9 → m ≠ 11 → daysInMonth d.date.year m = 31 := by
      intro m h2 h4 h6 h9 h11
      simp [daysInMonth, h2, h4, h6, h9, h11]
    have hshort : ∀ m, m = 4 ∨ m = 6 ∨ m = 9 ∨ m = 11 → daysInMonth d.date.year m = 30 := by
      rintro m (rfl | rfl | rfl | rfl) <;> rfl
    have hrange := d.date_day_range
    by_cases hthirty : d.date.month = 4 ∨ d.date.month = 6 ∨ d.date.month = 9 ∨ d.date.month = 11
    · rw [hshort _ hthirty]
      simp only [date] at hthirty ⊢
      omega
    · have hfebruary : d.date.month ≠ 2 := by
        simp only [date]
        omega
      rw [hlong _ hfebruary (by omega) (by omega) (by omega) (by omega)]
      exact hrange.2

theorem isValid_date (d : MarchDay) : d.date.isValid = true := by
  have hmonth := d.month_range
  have hlow : 1 ≤ d.date.month ∧ d.date.month ≤ 12 := by
    simp only [date]
    omega
  simp only [Date.isValid, Bool.and_eq_true, decide_eq_true_eq]
  exact ⟨⟨hlow, d.date_day_range.1⟩, d.day_le_daysInMonth⟩

end MarchDay

/-- **The date of a day has the number of the day.** -/
theorem toDay_ofDay (n : Int) : (Date.ofDay n).toDay = n := by
  obtain ⟨d, hday, hdate⟩ := MarchDay.exists_marchDay n
  rw [hdate, d.toDay_date]
  omega

theorem isValid_ofDay (n : Int) : (Date.ofDay n).isValid = true := by
  obtain ⟨d, _, hdate⟩ := MarchDay.exists_marchDay n
  rw [hdate]
  exact d.isValid_date

/-- The parts of a date of a day, in the ranges in which they are written. -/
theorem ofDay_ranges (n : Int) :
    (1 ≤ (Date.ofDay n).month ∧ (Date.ofDay n).month ≤ 12) ∧
      (1 ≤ (Date.ofDay n).day ∧ (Date.ofDay n).day ≤ 31) := by
  obtain ⟨d, _, hdate⟩ := MarchDay.exists_marchDay n
  have hmonth := d.month_range
  rw [hdate]
  refine ⟨?_, d.date_day_range⟩
  simp only [MarchDay.date]
  omega

end DualStore.Calendar
