import DualStore.Calendar.Timestamp
import DualStore.Proofs.CivilDates
import DualStore.Proofs.NumberTexts

/-!
# Date texts written and read

The text of an instant in a zone is read back in the same zone as the instant, rounded down to whole
seconds.

* `readDigits_padded`, `readField_padded`, `readYear_yearChars`: the parts of a date text;
* `readChars?_secondChars`: the text of a second of local time;
* `read?_write?`: the text of an instant;
* `readInt64?_write?`: such a text is never the text of an integer.
-/

namespace DualStore.Text

/-- Nothing is trimmed from a text without blanks at its ends. -/
theorem trim_of_ends {first last : Char} {cs : List Char} (hfirst : isBlank first = false)
    (hlast : isBlank last = false) (hhead : cs.head? = some first)
    (hend : cs.reverse.head? = some last) : trim cs = cs := by
  have hfront : trimStart cs = cs := by
    apply dropWhile_of_stopsAt
    intro c hc
    rw [hhead] at hc
    rw [← Option.some.inj hc]
    exact hfirst
  have hback : trimStart cs.reverse = cs.reverse := by
    apply dropWhile_of_stopsAt
    intro c hc
    rw [hend] at hc
    rw [← Option.some.inj hc]
    exact hlast
  rw [trim, hfront, hback, List.reverse_reverse]

/-- The digits are the characters from 48 to 57. -/
theorem isDigit_range {c : Char} (h : c.isDigit = true) : 48 ≤ c.toNat ∧ c.toNat ≤ 57 := by
  simp only [Char.isDigit, Bool.and_eq_true, decide_eq_true_eq, ge_iff_le,
    UInt32.le_iff_toNat_le] at h
  exact ⟨h.1, h.2⟩

theorem not_isBlank_of_isDigit {c : Char} (h : c.isDigit = true) : isBlank c = false := by
  have hrange := isDigit_range h
  simp only [isBlank, Bool.or_eq_false_iff, Bool.and_eq_false_iff, beq_eq_false_iff_ne,
    decide_eq_false_iff_not]
  omega

end DualStore.Text

namespace DualStore.Decimal

/-- A text with a character that is neither a digit nor a sign is no integer. -/
theorem readInt64?_eq_none {cs : List Char} {c : Char} (hc : c ∈ cs) (hdigit : c.isDigit = false)
    (hminus : c ≠ '-') (hplus : c ≠ '+') : readInt64? cs = none := by
  have hnat : ∀ ds : List Char, c ∈ ds → readNat? ds = none := by
    intro ds hds
    have hall : ¬(ds ≠ [] ∧ ds.all Char.isDigit = true) := by
      rintro ⟨_, hall⟩
      have hyes : c.isDigit = true := List.all_eq_true.mp hall c hds
      exact absurd (hyes.symm.trans hdigit) (by decide)
    rw [readNat?, if_neg hall]
  unfold readInt64?
  split
  · next rest =>
    have hrest : c ∈ rest := (List.mem_cons.mp hc).resolve_left hminus
    rw [hnat rest hrest]
    rfl
  · next rest =>
    have hrest : c ∈ rest := (List.mem_cons.mp hc).resolve_left hplus
    rw [hnat rest hrest]
    rfl
  · rw [hnat cs hc]
    rfl

end DualStore.Decimal

namespace DualStore.Calendar

open Text (StopsAt)

/-! ## Numbers with leading zeros -/

theorem all_isDigit_padded (width n : Nat) : (padded width n).all Char.isDigit = true := by
  have hzeros : ∀ k : Nat, (List.replicate k '0').all Char.isDigit = true := by
    intro k
    rw [List.all_eq_true]
    intro c hc
    rw [List.eq_of_mem_replicate hc]
    rfl
  rw [padded, List.all_append, hzeros, Decimal.all_isDigit_digits]
  rfl

theorem padded_ne_nil (width n : Nat) : padded width n ≠ [] := by
  rw [padded]
  exact List.append_ne_nil_of_right_ne_nil _ (Decimal.digits_ne_nil n)

theorem ofDigitChars_padded (width n : Nat) : Nat.ofDigitChars 10 (padded width n) 0 = n := by
  rw [padded, Nat.ofDigitChars_append, Nat.ofDigitChars_replicate_zero, Nat.mul_zero,
    Decimal.digits, Nat.ofDigitChars_ten_toDigits]

/-- A number that has enough digits at the given width is not longer than the width. -/
theorem length_padded_le {width n : Nat} (hwidth : 0 < width) (h : n < 10 ^ width) :
    (padded width n).length ≤ width := by
  have hdigits : (Decimal.digits n).length ≤ width :=
    (Nat.length_toDigits_le_iff (by decide) hwidth).mpr h
  simp only [padded, List.length_append, List.length_replicate]
  omega

theorem exists_cons_padded (width n : Nat) :
    ∃ d ds, padded width n = d :: ds ∧ d.isDigit = true := by
  have hall : ∀ c ∈ padded width n, c.isDigit = true :=
    List.all_eq_true.mp (all_isDigit_padded width n)
  cases hds : padded width n with
  | nil => exact absurd hds (padded_ne_nil width n)
  | cons d ds =>
    rw [hds] at hall
    exact ⟨d, ds, rfl, hall d List.mem_cons_self⟩

/-- A number is read up to where its digits end. -/
theorem readDigits_padded {most width n : Nat} {rest : List Char}
    (hmost : (padded width n).length ≤ most) (hrest : StopsAt Char.isDigit rest) :
    readDigits most (padded width n ++ rest) = some ((n : Int), rest) := by
  have htake : ((padded width n ++ rest).takeWhile Char.isDigit).take most = padded width n := by
    rw [Text.takeWhile_append_stopsAt (all_isDigit_padded width n) hrest,
      List.take_of_length_le hmost]
  unfold readDigits
  simp only [htake, if_neg (padded_ne_nil width n), ofDigitChars_padded, List.drop_left]

theorem trimStart_padded (width n : Nat) (rest : List Char) :
    Text.trimStart (padded width n ++ rest) = padded width n ++ rest := by
  obtain ⟨d, ds, hds, hd⟩ := exists_cons_padded width n
  rw [hds, List.cons_append]
  exact Text.dropWhile_of_stopsAt (Text.stopsAt_cons (Text.not_isBlank_of_isDigit hd) _)

theorem readField_padded (low high : Int) (n : Nat) {rest : List Char} (hlow : low ≤ n)
    (hhigh : n ≤ high) (hwidth : n < 100) (hrest : StopsAt Char.isDigit rest) :
    readField low high (padded 2 n ++ rest) = some ((n : Int), rest) := by
  have hlength : (padded 2 n).length ≤ 2 := length_padded_le (by decide) hwidth
  have hread := readDigits_padded hlength hrest
  have hrange : low ≤ (n : Int) ∧ (n : Int) ≤ high := ⟨hlow, hhigh⟩
  simp only [readField, trimStart_padded, hread, Option.bind_eq_bind, Option.bind_some,
    if_pos hrange]

theorem readMark_cons (mark : Char) (cs : List Char) : readMark mark (mark :: cs) = some cs := by
  rw [readMark, if_pos rfl]

theorem readYear_yearChars (year : Int) {rest : List Char} (hrest : StopsAt Char.isDigit rest) :
    readYear (yearChars year ++ rest) = some (year, rest) := by
  have hall : ∀ n : Nat, (padded 4 n).length ≤ (padded 4 n ++ rest).length := by
    intro n
    rw [List.length_append]
    omega
  unfold yearChars
  split
  · next hneg =>
    have htrim : Text.trimStart ('-' :: (padded 4 year.natAbs ++ rest))
        = '-' :: (padded 4 year.natAbs ++ rest) :=
      Text.dropWhile_of_stopsAt (Text.stopsAt_cons (by decide) _)
    have habs : -(year.natAbs : Int) = year := by omega
    rw [List.cons_append, readYear, htrim]
    simp only [readDigits_padded (hall _) hrest, Option.map_some, habs]
  · next hneg =>
    split
    · next hlong =>
      have htrim : Text.trimStart ('+' :: (padded 4 year.natAbs ++ rest))
          = '+' :: (padded 4 year.natAbs ++ rest) :=
        Text.dropWhile_of_stopsAt (Text.stopsAt_cons (by decide) _)
      have habs : (year.natAbs : Int) = year := by omega
      rw [List.cons_append, readYear, htrim]
      simp only [readDigits_padded (hall _) hrest, habs]
    · next hshort =>
      obtain ⟨d, ds, hds, hd⟩ := exists_cons_padded 4 year.natAbs
      have hlength : (padded 4 year.natAbs).length ≤ 4 :=
        length_padded_le (by decide) (by omega)
      have hread := readDigits_padded hlength hrest
      have habs : (year.natAbs : Int) = year := by omega
      rw [readYear, trimStart_padded]
      rw [hds, List.cons_append] at hread ⊢
      split
      · next heq =>
        rw [(List.cons.inj heq).1] at hd
        exact absurd hd (by decide)
      · next heq =>
        rw [(List.cons.inj heq).1] at hd
        exact absurd hd (by decide)
      · rw [hread, habs]

/-! ## Seconds -/

/-- The text of a second of local time ends with a digit. -/
theorem secondChars_last (second : Int) :
    ∃ c, (secondChars second).reverse.head? = some c ∧ c.isDigit = true := by
  cases hcs : (padded 2 ((second % 86400).toNat % 60)).reverse with
  | nil => exact absurd (List.reverse_eq_nil_iff.mp hcs) (padded_ne_nil _ _)
  | cons c cs =>
    have hmem : c ∈ padded 2 ((second % 86400).toNat % 60) := by
      rw [← List.mem_reverse, hcs]
      exact List.mem_cons_self
    refine ⟨c, ?_, List.all_eq_true.mp (all_isDigit_padded _ _) c hmem⟩
    simp only [secondChars, List.reverse_append, List.reverse_cons, hcs, List.cons_append,
      List.head?_cons]

/-- The text of a second of local time has no blanks at its ends, and one between date and time. -/
theorem secondChars_shape (second : Int) :
    (∃ first, (secondChars second).head? = some first ∧ Text.isBlank first = false) ∧
      (∃ last, (secondChars second).reverse.head? = some last ∧ Text.isBlank last = false) ∧
      ' ' ∈ secondChars second := by
  refine ⟨?_, ?_, ?_⟩
  · have hyear : ∃ c cs, yearChars (Date.ofDay (second / 86400)).year = c :: cs ∧
        Text.isBlank c = false := by
      unfold yearChars
      split
      · exact ⟨'-', _, rfl, by decide⟩
      · split
        · exact ⟨'+', _, rfl, by decide⟩
        · obtain ⟨d, ds, hds, hd⟩ := exists_cons_padded 4 (Date.ofDay (second / 86400)).year.natAbs
          exact ⟨d, ds, hds, Text.not_isBlank_of_isDigit hd⟩
    obtain ⟨c, cs, hcs, hc⟩ := hyear
    refine ⟨c, ?_, hc⟩
    simp only [secondChars, hcs, List.cons_append, List.head?_cons]
  · obtain ⟨c, hc, hdigit⟩ := secondChars_last second
    exact ⟨c, hc, Text.not_isBlank_of_isDigit hdigit⟩
  · simp [secondChars]

/-- The text of a second of local time is read as the second of universal time, if both lie in the
calendar, and is not read else. -/
theorem readChars?_secondChars (second : Int) (zone : Zone) :
    readChars? (secondChars second) zone
      = if inCalendar (second / 86400) = true ∧ inCalendar ((second - zone.seconds) / 86400) = true
        then some ((second - zone.seconds) * 1000) else none := by
  obtain ⟨⟨hmonth, hmonth'⟩, hday, hday'⟩ := ofDay_ranges (second / 86400)
  have hvalid := isValid_ofDay (second / 86400)
  have hnumber := toDay_ofDay (second / 86400)
  obtain ⟨clock, hclock⟩ : ∃ clock : Nat, clock = (second % 86400).toNat := ⟨_, rfl⟩
  have hseconds : (clock : Int) = second % 86400 := by omega
  simp only [secondChars, ← hclock]
  generalize Date.ofDay (second / 86400) = date at *
  obtain ⟨year, month, day⟩ := date
  simp only at hmonth hmonth' hday hday' ⊢
  have hmonthCast : (month.toNat : Int) = month := by omega
  have hdayCast : (day.toNat : Int) = day := by omega
  have hbreak : ∀ c : Char, c.isDigit = false → ∀ cs, StopsAt Char.isDigit (c :: cs) :=
    fun c hc cs => Text.stopsAt_cons hc cs
  have hminute : min ((clock % 60 : Nat) : Int) 59 = ((clock % 60 : Nat) : Int) := by omega
  have hsum : second / 86400 * 86400 + ((clock / 3600 : Nat) : Int) * 3600
      + ((clock / 60 % 60 : Nat) : Int) * 60 + ((clock % 60 : Nat) : Int) = second := by
    omega
  have hspace : ∀ cs, Text.trimStart (' ' :: cs) = Text.trimStart cs := fun cs => rfl
  have hyears := fun rest => readYear_yearChars year (hbreak '-' rfl rest)
  have hmonths := fun rest => readField_padded 1 12 month.toNat
    (by omega) (by omega) (by omega) (hbreak '-' rfl rest)
  have hdays := fun rest => readField_padded 1 31 day.toNat
    (by omega) (by omega) (by omega) (hbreak ' ' rfl rest)
  have hhours := fun rest => readField_padded 0 23 (clock / 3600)
    (by omega) (by omega) (by omega) (hbreak ':' rfl rest)
  have hminutes := fun rest => readField_padded 0 59 (clock / 60 % 60)
    (by omega) (by omega) (by omega) (hbreak ':' rfl rest)
  have hends := readField_padded 0 60 (clock % 60)
    (by omega) (by omega) (by omega) Text.stopsAt_nil
  rw [List.append_nil] at hends
  simp only [readChars?, List.append_assoc, List.cons_append, hyears, hmonths, hdays, hhours,
    hminutes, hends, hspace, trimStart_padded, readMark_cons, Option.bind_eq_bind,
    Option.bind_some, hmonthCast, hdayCast, hnumber, hminute, hsum]
  simp only [hvalid, true_and]

/-- **The text of an instant is read as the instant**, rounded down to whole seconds, if the local
time lies in the calendar; else it is not read. -/
theorem read?_write? {ms : Int} {zone : Zone} {text : String} (h : write? ms zone = some text) :
    read? text zone
      = if inCalendar ((ms / 1000 + zone.seconds) / 86400) = true then some (ms / 1000 * 1000)
        else none := by
  simp only [write?] at h
  split at h
  · next huniversal =>
    rw [← Option.some.inj h, read?, String.toList_ofList]
    obtain ⟨⟨first, hhead, hfirst⟩, ⟨last, hend, hlast⟩, _⟩ :=
      secondChars_shape (ms / 1000 + zone.seconds)
    have hback : ms / 1000 + zone.seconds - zone.seconds = ms / 1000 := by omega
    rw [Text.trim_of_ends hfirst hlast hhead hend, readChars?_secondChars, hback]
    simp only [huniversal, and_true]
  · exact absurd h (by simp)

/-- The text of an instant is neither empty nor the text of an integer. -/
theorem readInt64?_write? {ms : Int} {zone : Zone} {text : String}
    (h : write? ms zone = some text) : text ≠ "" ∧ Decimal.readInt64? text.toList = none := by
  simp only [write?] at h
  split at h
  · obtain ⟨⟨first, hhead, _⟩, _, hspace⟩ := secondChars_shape (ms / 1000 + zone.seconds)
    have htext : text.toList = secondChars (ms / 1000 + zone.seconds) := by
      rw [← Option.some.inj h, String.toList_ofList]
    refine ⟨?_, ?_⟩
    · rintro rfl
      rw [← htext] at hhead
      simp at hhead
    · rw [htext]
      exact Decimal.readInt64?_eq_none hspace (by decide) (by decide) (by decide)
  · exact absurd h (by simp)

end DualStore.Calendar
