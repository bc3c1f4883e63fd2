import DualStore.Proofs.ColumnCells

/-!
# Dates saved and saved again

A date that is read and saved again is already in whole seconds, so it comes back as it is and its
column does not change any more. Only the first second of 1970 is read as zero, and zero is written
as an integer.

* `heldDate`: what a date is after it has been saved and read;
* `heldDate_heldDate`, `date_of_heldDate`: a second reading loses nothing;
* `fieldParameter_date`: what is bound for a date;
* `date_settles`: the text of an instant, and the columns of the first and of every later save.
-/

namespace DualStore.Calendar

/-- An instant of the calendar is an integer of 64 bits. -/
theorem fitsInt64_of_inCalendar {ms : Int} (h : inCalendar (ms / 1000 / 86400) = true) :
    Decimal.fitsInt64 ms = true := by
  have hfirst : firstDay = -96465292 := by decide
  have hlast : lastDay = 95026236 := by decide
  simp only [inCalendar, hfirst, hlast, Bool.and_eq_true, decide_eq_true_eq] at h
  rw [Decimal.fitsInt64_iff, Decimal.int64Min, Decimal.int64Max]
  omega

/-- An instant of the calendar has a text. -/
theorem write?_of_inCalendar {ms : Int} (h : inCalendar (ms / 1000 / 86400) = true) (zone : Zone) :
    write? ms zone = some (String.ofList (secondChars (ms / 1000 + zone.seconds))) := by
  rw [write?, if_pos h]

end DualStore.Calendar

namespace DualStore.Relational

open Model

/-- What a date is after it has been saved and read: an instant after 1970 is rounded down to whole
seconds. -/
def heldDate (ms : Int) : Int := if 0 < ms then ms / 1000 * 1000 else ms

/-- Rounding down twice is rounding down once. -/
theorem heldDate_heldDate (ms : Int) : heldDate (heldDate ms) = heldDate ms := by
  by_cases hpos : 0 < ms
  · rw [heldDate, heldDate, if_pos hpos]
    split <;> omega
  · rw [heldDate, heldDate, if_neg hpos, if_neg hpos]

/-- Only an instant of the first second is held as an integer. -/
theorem heldDate_pos {ms : Int} (h : 0 < ms) : 0 < heldDate ms ↔ 1000 ≤ ms := by
  rw [heldDate, if_pos h]
  omega

/-- A date that has been read is in the same second as before. -/
theorem heldDate_div (ms : Int) : heldDate ms / 1000 = ms / 1000 := by
  unfold heldDate
  split <;> omega

section Saved

variable {zone : Calendar.Zone} {field : Field} {ms : Int}

/-- What a date field binds: the text of an instant after 1970, and any other value as it is. -/
theorem fieldParameter_date {width : IntWidth} (hkind : field.kind = .int width)
    (hdate : field.isDate = true) (h : Calendar.inCalendar (ms / 1000 / 86400) = true) :
    fieldParameter field (some (.int ms)) zone = .ok (some (
      if 0 < ms then .text (String.ofList (Calendar.secondChars (ms / 1000 + zone.seconds)))
      else .integer ms)) := by
  have hint : Json.asInt64? (.int ms) = some ms := by
    rw [Json.asInt64?, if_pos (Calendar.fitsInt64_of_inCalendar h)]
  simp only [fieldParameter, hkind, hint, hdate, true_and]
  by_cases hpos : 0 < ms
  · rw [if_pos hpos, if_pos hpos, Calendar.write?_of_inCalendar h zone]
  · rw [if_neg hpos, if_neg hpos]

/-- What a date field binds is read as the date that it holds. -/
theorem readCell_heldDate (hkind : field.kind = .int .w64) (hdate : field.isDate = true)
    (h : Calendar.inCalendar (ms / 1000 / 86400) = true)
    (hlocal : Calendar.inCalendar ((ms / 1000 + zone.seconds) / 86400) = true) {p : Value}
    (hbound : fieldParameter field (some (.int ms)) zone = .ok (some p)) :
    readCell zone (Projection.bindingOf field) (cellText (some p))
      = .ok (some (.int (heldDate ms))) := by
  have hfits : Decimal.fitsBits IntWidth.w64.bits ms = true := Calendar.fitsInt64_of_inCalendar h
  have hconforms : Conforms zone field (.int ms) := by
    simp only [Conforms, hkind]
    exact ⟨hfits, fun _ _ => hlocal⟩
  rw [(writes_of_fieldParameter hbound).readCell_eq (fun _ => hkind) hconforms, restored]
  simp only [hdate, true_and, heldDate]

/-- **A date is settled by its first save.** An instant whose universal and local times lie in the
calendar has a text, which is no integer and is read as the instant rounded down to whole seconds. A
date field binds something that is read as the date it holds, and saving what was read is read as
the same again and binds the same as before; only a date within the first second is read as zero and
then bound as the integer zero. -/
theorem date_settles (zone : Calendar.Zone) (ms : Int)
    (huniversal : Calendar.inCalendar (ms / 1000 / 86400) = true)
    (hlocal : Calendar.inCalendar ((ms / 1000 + zone.seconds) / 86400) = true) :
    (∃ text, Calendar.write? ms zone = some text ∧ Decimal.readInt64? text.toList = none ∧
        Calendar.read? text zone = some (ms / 1000 * 1000)) ∧
      ∀ field : Field, field.kind = .int .w64 → field.isDate = true →
        ∃ first later, fieldParameter field (some (.int ms)) zone = .ok (some first) ∧
          readCell zone (Projection.bindingOf field) (cellText (some first))
            = .ok (some (.int (heldDate ms))) ∧
          fieldParameter field (some (.int (heldDate ms))) zone = .ok (some later) ∧
          readCell zone (Projection.bindingOf field) (cellText (some later))
            = .ok (some (.int (heldDate ms))) ∧
          if 0 < ms ∧ ms < 1000 then heldDate ms = 0 ∧ later = .integer 0 else later = first := by
  constructor
  · have hwrite := Calendar.write?_of_inCalendar huniversal zone
    refine ⟨_, hwrite, (Calendar.readInt64?_write? hwrite).2, ?_⟩
    rw [Calendar.read?_write? hwrite, if_pos hlocal]
  · intro field hkind hdate
    have hheld : Calendar.inCalendar (heldDate ms / 1000 / 86400) = true := by
      rw [heldDate_div]
      exact huniversal
    have hheldLocal : Calendar.inCalendar ((heldDate ms / 1000 + zone.seconds) / 86400) = true := by
      rw [heldDate_div]
      exact hlocal
    have hfirst : fieldParameter field (some (.int ms)) zone = _ :=
      fieldParameter_date hkind hdate huniversal
    have hlater : fieldParameter field (some (.int (heldDate ms))) zone = _ :=
      fieldParameter_date hkind hdate hheld
    have hagain := readCell_heldDate hkind hdate hheld hheldLocal hlater
    rw [heldDate_heldDate] at hagain
    refine ⟨_, _, hfirst, readCell_heldDate hkind hdate huniversal hlocal hfirst, hlater, hagain,
      ?_⟩
    by_cases hpos : 0 < ms
    · by_cases hsmall : ms < 1000
      · have hzero : heldDate ms = 0 := by
          rw [heldDate, if_pos hpos]
          omega
        rw [if_pos ⟨hpos, hsmall⟩, hzero]
        exact ⟨rfl, rfl⟩
      · have hlate : 0 < heldDate ms := (heldDate_pos hpos).mpr (by omega)
        rw [if_neg fun both => hsmall both.2, if_pos hpos, if_pos hlate, heldDate_div]
    · rw [if_neg fun both => hpos both.1, heldDate, if_neg hpos, if_neg hpos]

/-- A date before 1970 in a zone to the west, a date with a year of five digits, and a date column
that stays the same. -/
theorem date_settles_far :
    (∃ text, Calendar.write? (-1500) (.ofSeconds (-3600)) = some text ∧
        Decimal.readInt64? text.toList = none ∧
        Calendar.read? text (.ofSeconds (-3600)) = some (-2000)) ∧
      (∃ text, Calendar.write? 253402300800999 .universal = some text ∧
        Decimal.readInt64? text.toList = none ∧
        Calendar.read? text .universal = some 253402300800000) ∧
      ∃ bound, fieldParameter ⟨"born", .int .w64, false, true⟩ (some (.int 1700000000123)) .universal
          = .ok (some bound) ∧
        fieldParameter ⟨"born", .int .w64, false, true⟩ (some (.int 1700000000000)) .universal
          = .ok (some bound) := by
  refine ⟨(date_settles (.ofSeconds (-3600)) (-1500) (by decide) (by decide)).1,
    (date_settles .universal 253402300800999 (by decide) (by decide)).1, ?_⟩
  obtain ⟨first, later, hfirst, -, hlater, -, hsame⟩ :=
    (date_settles .universal 1700000000123 (by decide) (by decide)).2
      ⟨"born", .int .w64, false, true⟩ rfl rfl
  obtain rfl : later = first := by simpa using hsame
  exact ⟨later, hfirst, hlater⟩

/-- Half a second after the beginning of 1970 is bound as a text and read as zero, and zero is bound
as an integer: the second save changes the column. -/
theorem first_second_bound_twice :
    fieldParameter ⟨"born", .int .w64, false, true⟩ (some (.int 500)) .universal
        = .ok (some (.text "1970-01-01 00:00:00")) ∧
      readCell .universal (Projection.bindingOf ⟨"born", .int .w64, false, true⟩)
        (cellText (some (.text "1970-01-01 00:00:00"))) = .ok (some (.int 0)) ∧
      fieldParameter ⟨"born", .int .w64, false, true⟩ (some (.int 0)) .universal
        = .ok (some (.integer 0)) ∧
      cellText (some (.integer 0)) ≠ cellText (some (.text "1970-01-01 00:00:00")) :=
  ⟨rfl, rfl, rfl, by decide⟩

end Saved

end DualStore.Relational
