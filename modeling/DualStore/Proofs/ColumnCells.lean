import DualStore.Proofs.DateTexts
import DualStore.Proofs.EntityMetadata
import DualStore.Proofs.JsonText
import DualStore.Sql.Datum

/-!
# Columns written and read

A column keeps what is bound to it and gives it back as a text. What a field writes and what is read
from its column are inverse to each other, kind by kind; only an empty text and the part of a date
below a second are lost.

* `cellText`, `readCell`: the text of a column, and what it is read as;
* `Conforms`: a value is of the declared kind of its field;
* `restored`: what a field comes back as;
* `readCell_text`, `readCell_integer`, `readCell_date`, `readCell_json`: the kinds;
* `Writes`, `fieldParameter_cases`: what a field writes, kind by kind;
* `readCell_fieldParameter`: every relational field.
-/

namespace DualStore.Relational

open Model

/-- The text of a column that keeps what is bound to it; a column to which nothing is bound is
null. -/
def cellText (bound : Option Value) : Option String :=
  bound.bind fun v => (Sql.Datum.ofValue v).columnText

/-- What a column is read as; nothing for a null and for an empty text. -/
def readCell (zone : Calendar.Zone) (b : Binding) : Option String → Except DecodeError (Option Json)
  | none => .ok none
  | some text => if text = "" then .ok none else (readColumn zone b text).map some

/-- The value is of the declared kind of the field: an integer within its width, a list or a map
whose elements are of the kind of its elements and whose text gives it back, and a date whose local
time lies in the calendar. -/
def Conforms (zone : Calendar.Zone) (field : Field) (value : Json) : Prop :=
  match field.kind, value with
  | .string, .str _ => True
  | .int width, .int n =>
    Decimal.fitsBits width.bits n = true ∧
      (field.isDate = true → 0 < n →
        Calendar.inCalendar ((n / 1000 + zone.seconds) / 86400) = true)
  | .list element, .arr items =>
    items.all (isElement element) = true ∧ Json.isExact Json.maxLevels (.arr items) = true
  | .map element, .obj fields =>
    fields.all (fun entry => isElement element entry.2) = true ∧
      Json.isExact Json.maxLevels (.obj fields) = true
  | _, _ => False

/-- What a field comes back as: an absent or null value and an empty text are gone, and a date after
1970 is rounded down to whole seconds. -/
def restored (field : Field) : Option Json → Option Json
  | none => none
  | some .null => none
  | some (.str s) => if s = "" then none else some (.str s)
  | some (.int n) => some (.int (if field.isDate ∧ 0 < n then n / 1000 * 1000 else n))
  | some value => some value

/-! ## Kinds -/

theorem fitsInt64_of_fitsBits {width : IntWidth} {n : Int}
    (h : Decimal.fitsBits width.bits n = true) : Decimal.fitsInt64 n = true := by
  rw [Decimal.fitsInt64_iff, Decimal.int64Min, Decimal.int64Max]
  simp only [Decimal.fitsBits, Bool.and_eq_true, decide_eq_true_eq] at h
  cases width <;> simp only [IntWidth.bits, Nat.pow_eq] at h <;> omega

theorem intText_ne_empty (n : Int) : Decimal.intText n ≠ "" := by
  intro h
  have hchars : Decimal.intChars n = [] := by
    have hlist := congrArg String.toList h
    rwa [Decimal.intText, String.toList_ofList] at hlist
  cases n with
  | ofNat n => exact Decimal.digits_ne_nil n hchars
  | negSucc n => exact absurd hchars (by simp [Decimal.intChars])

theorem text_ne_empty {levels : Nat} {value : Json} (h : value.isExact levels = true) :
    value.text ≠ "" := by
  intro hempty
  obtain ⟨c, cs, hcs, _⟩ := Json.starts_chars h
  have hlist := congrArg String.toList hempty
  rw [Json.text, String.toList_ofList, hcs] at hlist
  exact absurd hlist (by simp)

theorem readCell_of_ne_empty {zone : Calendar.Zone} {b : Binding} {text : String} {value : Json}
    (hne : text ≠ "") (h : readColumn zone b text = .ok value) :
    readCell zone b (some text) = .ok (some value) := by
  rw [readCell, if_neg hne, h]
  rfl

/-- A text comes back as it is, unless it is empty. -/
theorem readCell_text {zone : Calendar.Zone} {b : Binding} (hkind : b.kind = .string)
    (s : String) :
    readCell zone b (cellText (some (.text s))) = .ok (if s = "" then none else some (.str s)) := by
  have hcell : cellText (some (.text s)) = some s := rfl
  rw [hcell]
  by_cases hs : s = ""
  · rw [if_pos hs, readCell, if_pos hs]
  · rw [if_neg hs]
    apply readCell_of_ne_empty hs
    simp only [readColumn, hkind]

/-- An integer within its width comes back as it is, also from a column of dates. -/
theorem readCell_integer {zone : Calendar.Zone} {b : Binding} {width : IntWidth}
    (hkind : b.kind = .int width) {n : Int} (hfits : Decimal.fitsBits width.bits n = true) :
    readCell zone b (cellText (some (.integer n))) = .ok (some (.int n)) := by
  have hcell : cellText (some (.integer n)) = some (Decimal.intText n) := rfl
  have hread : Decimal.readInt64? (Decimal.intText n).toList = some n := by
    rw [Decimal.intText, String.toList_ofList]
    exact Decimal.readInt64?_intChars (fitsInt64_of_fitsBits hfits)
  rw [hcell]
  apply readCell_of_ne_empty (intText_ne_empty n)
  simp only [readColumn, hkind, hread]
  by_cases hdate : width = .w64 ∧ b.isDate = true
  · rw [if_pos hdate]
  · rw [if_neg hdate, if_pos hfits]

/-- A date comes back rounded down to whole seconds. -/
theorem readCell_date {zone : Calendar.Zone} {b : Binding} (hkind : b.kind = .int .w64)
    (hdate : b.isDate = true) {n : Int} {text : String}
    (hwrite : Calendar.write? n zone = some text)
    (hlocal : Calendar.inCalendar ((n / 1000 + zone.seconds) / 86400) = true) :
    readCell zone b (cellText (some (.text text))) = .ok (some (.int (n / 1000 * 1000))) := by
  have hcell : cellText (some (.text text)) = some text := rfl
  obtain ⟨hne, hint⟩ := Calendar.readInt64?_write? hwrite
  have hread := Calendar.read?_write? hwrite
  rw [if_pos hlocal] at hread
  rw [hcell]
  apply readCell_of_ne_empty hne
  simp only [readColumn, hkind, hint, hread]
  rw [if_pos ⟨trivial, hdate⟩]

/-- An array or an object whose text gives it back is read from its text as it is. -/
theorem readCell_json {zone : Calendar.Zone} {b : Binding} {value : Json}
    (hexact : Json.isExact Json.maxLevels value = true)
    (hread : ∀ text, Json.parse? text = some value → readColumn zone b text = .ok value) :
    readCell zone b (cellText (some (.text value.text))) = .ok (some value) := by
  have hcell : cellText (some (.text value.text)) = some value.text := rfl
  rw [hcell]
  exact readCell_of_ne_empty (text_ne_empty hexact) (hread _ (Json.parse?_text hexact))

/-! ## Fields -/

/-- What a field writes for a value: a text as it is, an integer of 64 bits as it is or as a date
text, an array or an object as its JSON text. -/
inductive Writes (zone : Calendar.Zone) (field : Field) : Json → Value → Prop
  | text (hkind : field.kind = .string) (s : String) : Writes zone field (.str s) (.text s)
  | integer {width : IntWidth} (hkind : field.kind = .int width) {n : Int}
    (hfits : Decimal.fitsInt64 n = true) (hplain : ¬(field.isDate = true ∧ 0 < n)) :
    Writes zone field (.int n) (.integer n)
  | date {width : IntWidth} (hkind : field.kind = .int width) {n : Int}
    (hfits : Decimal.fitsInt64 n = true) (hdate : field.isDate = true ∧ 0 < n) {text : String}
    (hwrite : Calendar.write? n zone = some text) : Writes zone field (.int n) (.text text)
  | list {element : ElementKind} (hkind : field.kind = .list element) (items : List Json) :
    Writes zone field (.arr items) (.text (Json.arr items).text)
  | map {element : ElementKind} (hkind : field.kind = .map element) (fields : Fields) :
    Writes zone field (.obj fields) (.text (Json.obj fields).text)

section Written

variable {zone : Calendar.Zone} {field : Field}

theorem Writes.isRelational {v : Json} {p : Value} (h : Writes zone field v p) :
    field.kind.isRelational = true := by
  cases h with
  | text hkind | integer hkind | date hkind | list hkind | map hkind => rw [hkind]; rfl

theorem Conforms.isRelational {v : Json} (h : Conforms zone field v) :
    field.kind.isRelational = true := by
  cases hkind : field.kind with
  | bool | float => simp [Conforms, hkind] at h
  | _ => rfl

/-- An integer of 64 bits is written, as its date text or as it is. -/
theorem writes_int {width : IntWidth} (hkind : field.kind = .int width) {v : Json}
    (hnull : v ≠ .null) {bound : Option Value}
    (h : fieldParameter field (some v) zone = .ok bound) :
    ∃ p, bound = some p ∧ Writes zone field v p := by
  cases v with
  | null => exact absurd rfl hnull
  | int n =>
    cases hint : Json.asInt64? (.int n) with
    | none => simp [fieldParameter, hkind, hint] at h
    | some k =>
      have hfits : Decimal.fitsInt64 n = true ∧ n = k := by
        simpa [Json.asInt64?] using hint
      obtain ⟨hfits, rfl⟩ := hfits
      simp only [fieldParameter, hkind, hint] at h
      by_cases hdate : field.isDate = true ∧ 0 < n
      · rw [if_pos hdate] at h
        cases hwrite : Calendar.write? n zone with
        | none => simp [hwrite] at h
        | some text =>
          simp only [hwrite, Except.ok.injEq] at h
          exact ⟨.text text, h.symm, .date hkind hfits hdate hwrite⟩
      · rw [if_neg hdate, Except.ok.injEq] at h
        exact ⟨.integer n, h.symm, .integer hkind hfits hdate⟩
  | _ => simp [fieldParameter, hkind, Json.asInt64?] at h

/-- A field writes nothing for a null or if its kind has no column, and else its value. -/
theorem fieldParameter_cases {v : Json} {bound : Option Value}
    (h : fieldParameter field (some v) zone = .ok bound) :
    (bound = none ∧ (v = .null ∨ field.kind.isRelational = false)) ∨
      ∃ p, bound = some p ∧ Writes zone field v p := by
  by_cases hnull : v = .null
  · subst hnull
    exact .inl ⟨(Except.ok.inj h).symm, .inl rfl⟩
  cases hkind : field.kind with
  | string =>
    cases v <;> simp [fieldParameter, hkind] at h hnull
    exact .inr ⟨_, h.symm, .text hkind _⟩
  | int width => exact .inr (writes_int hkind hnull h)
  | list element =>
    cases v <;> simp [fieldParameter, hkind] at h hnull
    exact .inr ⟨_, h.symm, .list hkind _⟩
  | map element =>
    cases v <;> simp [fieldParameter, hkind] at h hnull
    exact .inr ⟨_, h.symm, .map hkind _⟩
  | bool =>
    cases v <;> simp [fieldParameter, hkind] at h hnull <;> exact .inl ⟨h.symm, .inr rfl⟩
  | float =>
    cases v <;> simp [fieldParameter, hkind] at h hnull <;> exact .inl ⟨h.symm, .inr rfl⟩

theorem writes_of_fieldParameter {v : Json} {p : Value}
    (h : fieldParameter field (some v) zone = .ok (some p)) : Writes zone field v p := by
  rcases fieldParameter_cases h with ⟨hnone, -⟩ | ⟨q, hq, hwrites⟩
  · exact absurd hnone (by simp)
  · rwa [Option.some.inj hq]

/-- A field of a kind that has a column writes it, unless the field is null. -/
theorem exists_writes {v : Json} (hnull : v ≠ .null) (hkind : field.kind.isRelational = true)
    {bound : Option Value} (h : fieldParameter field (some v) zone = .ok bound) :
    ∃ p, bound = some p ∧ Writes zone field v p := by
  rcases fieldParameter_cases h with ⟨-, hnone | hskipped⟩ | hwrites
  · exact absurd hnone hnull
  · exact absurd hkind (by simp [hskipped])
  · exact hwrites

/-- A value of the declared kind comes back from what the field writes for it. -/
theorem Writes.readCell_eq {v : Json} {p : Value} (h : Writes zone field v p)
    (hdates : field.isDate = true → field.kind = .int .w64) (hconforms : Conforms zone field v) :
    readCell zone (Projection.bindingOf field) (cellText (some p))
      = .ok (restored field (some v)) := by
  cases h with
  | text hkind s => exact readCell_text hkind s
  | integer hkind hfits hplain =>
    simp only [Conforms, hkind] at hconforms
    rw [restored, if_neg hplain]
    exact readCell_integer hkind hconforms.1
  | date hkind hfits hdate hwrite =>
    simp only [Conforms, hkind] at hconforms
    rw [restored, if_pos hdate]
    exact readCell_date (hdates hdate.1) hdate.1 hwrite (hconforms.2 hdate.1 hdate.2)
  | list hkind items =>
    simp only [Conforms, hkind] at hconforms
    refine readCell_json hconforms.2 fun text hparse => ?_
    simp only [readColumn, Projection.bindingOf, hkind, hparse, hconforms.1, if_true]
  | map hkind fields =>
    simp only [Conforms, hkind] at hconforms
    refine readCell_json hconforms.2 fun text hparse => ?_
    simp only [readColumn, Projection.bindingOf, hkind, hparse, hconforms.1, if_true]

/-- **What is read from the column of a field is what was written there**, for every kind that has a
column. -/
theorem readCell_fieldParameter (hdates : field.isDate = true → field.kind = .int .w64)
    {value : Option Json} (hconforms : ∀ v, value = some v → v ≠ .null → Conforms zone field v)
    {bound : Option Value} (h : fieldParameter field value zone = .ok bound) :
    readCell zone (Projection.bindingOf field) (cellText bound) = .ok (restored field value) := by
  cases value with
  | none =>
    rw [← Except.ok.inj h]
    rfl
  | some v =>
    by_cases hnull : v = .null
    · subst hnull
      rw [← Except.ok.inj h]
      rfl
    · have hv := hconforms v rfl hnull
      obtain ⟨p, rfl, hwrites⟩ := exists_writes hnull hv.isRelational h
      exact hwrites.readCell_eq hdates hv

end Written

end DualStore.Relational
