import DualStore.Proofs.ColumnCells
import DualStore.Proofs.ParsedValues

/-!
# Values decoded from any column

Whatever the text of a column looks like, with signs, leading zeros, blanks or repeated keys, a
value without doubles that is decoded from it is of the declared kind, a field of that kind writes
it, and it is decoded from what was written.

* `InWidth`, `OfElement`, `OfKind`: the values of a width, of an element kind and of a field kind;
* `Decodes`, `decodes_of_readColumn`: the columns that can be read, kind by kind;
* `Decodes.ofKind`, `Decodes.written_again`: what was read is of its kind, and is written;
* `decoded_written_again`: every column.
-/

namespace DualStore.Relational

open Model

/-! ## The declared kinds -/

/-- The integers of a width, in two's complement. -/
def InWidth (width : IntWidth) (n : Int) : Prop :=
  -(2 ^ (width.bits - 1)) ≤ n ∧ n < 2 ^ (width.bits - 1)

/-- The values of an element kind. -/
def OfElement : ElementKind → Json → Prop
  | .string, v => ∃ s, v = .str s
  | .int width, v => ∃ n, v = .int n ∧ InWidth width n
  | .any, _ => True

/-- The values of a field kind; no column can be read as one of a kind that has no column. -/
def OfKind : FieldKind → Json → Prop
  | .string, v => ∃ s, v = .str s
  | .int width, v => ∃ n, v = .int n ∧ InWidth width n
  | .list element, v => ∃ items, v = .arr items ∧ ∀ item ∈ items, OfElement element item
  | .map element, v => ∃ fields, v = .obj fields ∧ ∀ entry ∈ fields, OfElement element entry.2
  | .bool, _ => False
  | .float, _ => False

theorem inWidth_of_fitsBits {width : IntWidth} {n : Int}
    (h : Decimal.fitsBits width.bits n = true) : InWidth width n := by
  simp only [Decimal.fitsBits, Bool.and_eq_true, decide_eq_true_eq, Nat.pow_eq] at h
  exact_mod_cast h

theorem ofElement_of_isElement {element : ElementKind} {v : Json}
    (h : isElement element v = true) : OfElement element v := by
  cases element with
  | any => exact trivial
  | string => cases v <;> simp [isElement] at h ⊢; exact ⟨_, rfl⟩
  | int width =>
    cases v with
    | int n =>
      cases hint : Json.asInt64? (.int n) with
      | none => simp [isElement, hint] at h
      | some k =>
        simp only [isElement, hint] at h
        obtain ⟨-, rfl⟩ : Decimal.fitsInt64 n = true ∧ n = k := by
          simpa [Json.asInt64?] using hint
        exact ⟨n, rfl, inWidth_of_fitsBits h⟩
    | _ => simp [isElement, Json.asInt64?] at h

/-! ## What a column can be read as -/

/-- What the text of a column that is not a column of dates is decoded as, kind by kind. -/
inductive Decodes (kind : FieldKind) (text : String) : Json → Prop
  | text (hkind : kind = .string) : Decodes kind text (.str text)
  | integer {width : IntWidth} (hkind : kind = .int width) {n : Int}
    (hfits : Decimal.fitsBits width.bits n = true) : Decodes kind text (.int n)
  | list {element : ElementKind} (hkind : kind = .list element) {items : List Json}
    (hparse : Json.parse? text = some (.arr items))
    (hitems : items.all (isElement element) = true) :
    Decodes kind text (.arr items)
  | map {element : ElementKind} (hkind : kind = .map element) {fields : Fields}
    (hparse : Json.parse? text = some (.obj fields))
    (hfields : (fields.all fun entry => isElement element entry.2) = true) :
    Decodes kind text (.obj fields)

section Columns

variable {zone : Calendar.Zone} {b : Binding} {text : String} {v : Json}

theorem decodes_of_readColumn (hplain : ¬(b.kind = .int .w64 ∧ b.isDate = true))
    (h : readColumn zone b text = .ok v) : Decodes b.kind text v := by
  cases hkind : b.kind with
  | string =>
    simp only [readColumn, hkind, Except.ok.injEq] at h
    exact h ▸ .text rfl
  | int width =>
    have hnoDate : ¬(width = .w64 ∧ b.isDate = true) := by
      simpa [hkind] using hplain
    simp only [readColumn, hkind, if_neg hnoDate] at h
    split at h
    · split at h
      · next hfits => exact Except.ok.inj h ▸ .integer rfl hfits
      · cases h
    · cases h
  | list element =>
    simp only [readColumn, hkind] at h
    split at h
    · next items hparse =>
      split at h
      · next hitems => exact Except.ok.inj h ▸ .list rfl hparse hitems
      · cases h
    · cases h
  | map element =>
    simp only [readColumn, hkind] at h
    split at h
    · next fields hparse =>
      split at h
      · next hfields => exact Except.ok.inj h ▸ .map rfl hparse hfields
      · cases h
    · cases h
  | bool | float => simp [readColumn, hkind] at h

namespace Decodes

variable {kind : FieldKind}

theorem ofKind (h : Decodes kind text v) : OfKind kind v := by
  cases h with
  | text hkind => exact hkind ▸ ⟨text, rfl⟩
  | integer hkind hfits => exact hkind ▸ ⟨_, rfl, inWidth_of_fitsBits hfits⟩
  | list hkind _ hitems =>
    rw [List.all_eq_true] at hitems
    exact hkind ▸ ⟨_, rfl, fun item hitem => ofElement_of_isElement (hitems item hitem)⟩
  | map hkind _ hfields =>
    rw [List.all_eq_true] at hfields
    exact hkind ▸ ⟨_, rfl, fun entry hentry => ofElement_of_isElement (hfields entry hentry)⟩

/-- A field of the same kind that is not a date writes what was read, and it is read from what was
written. -/
theorem written_again {field : Field} (h : Decodes b.kind text v) (hne : text ≠ "")
    (hfree : v.isDoubleFree = true) (hkind : field.kind = b.kind) (hdate : field.isDate = false) :
    ∃ p, fieldParameter field (some v) zone = .ok (some p) ∧
      readCell zone b (cellText (some p)) = .ok (some v) := by
  cases h with
  | text htext =>
    refine ⟨.text text, by simp only [fieldParameter, hkind, htext], ?_⟩
    rw [readCell_text htext, if_neg hne]
  | @integer width hint n hfits =>
    have hlong := fitsInt64_of_fitsBits hfits
    exact ⟨.integer n, by simp [fieldParameter, hkind, hint, Json.asInt64?, hlong, hdate],
      readCell_integer hint hfits⟩
  | @list element hlist items hparse hitems =>
    refine ⟨.text (Json.arr items).text, by simp only [fieldParameter, hkind, hlist], ?_⟩
    refine readCell_json (Json.isExact_of_parse? hparse hfree) fun stored hstored => ?_
    simp only [readColumn, hlist, hstored, hitems, if_true]
  | @map element hmap fields hparse hfields =>
    refine ⟨.text (Json.obj fields).text, by simp only [fieldParameter, hkind, hmap], ?_⟩
    refine readCell_json (Json.isExact_of_parse? hparse hfree) fun stored hstored => ?_
    simp only [readColumn, hmap, hstored, hfields, if_true]

end Decodes

/-- A cell is read as a value if it has a text and the text is decoded as the value. -/
theorem readCell_eq_some_iff {cell : Option String} :
    readCell zone b cell = .ok (some v)
      ↔ ∃ stored, cell = some stored ∧ stored ≠ "" ∧ readColumn zone b stored = .ok v := by
  cases cell with
  | none => simp [readCell]
  | some stored =>
    by_cases hempty : stored = ""
    · simp [readCell, hempty]
    · cases hread : readColumn zone b stored <;> simp [readCell, hempty, hread, Except.map]

/-- **What is decoded from any text conforms to its declaration and can be written back**: it is of
the declared kind, a field of that kind accepts it, and the text that is stored for it is decoded as
the same value. -/
theorem decoded_written_again (hplain : ¬(b.kind = .int .w64 ∧ b.isDate = true)) (hne : text ≠ "")
    (h : readColumn zone b text = .ok v) (hfree : v.isDoubleFree = true) :
    OfKind b.kind v ∧ ∀ field : Field, field.kind = b.kind → field.isDate = false →
      ∃ p stored, fieldParameter field (some v) zone = .ok (some p)
        ∧ cellText (some p) = some stored ∧ stored ≠ "" ∧ readColumn zone b stored = .ok v := by
  have hdecodes := decodes_of_readColumn hplain h
  refine ⟨hdecodes.ofKind, fun field hkind hdate => ?_⟩
  obtain ⟨p, hwritten, hread⟩ := hdecodes.written_again hne hfree hkind hdate
  obtain ⟨stored, hcell, hstored, hagain⟩ := readCell_eq_some_iff.mp hread
  exact ⟨p, stored, hwritten, hcell, hstored, hagain⟩

/-- A map of short integers with blanks and a key that is written twice. -/
def unevenText : String :=
  " \x7b\"b\": 1 ,\n\"a\":-20, \"b\" :32767\x7d "

/-- A column of maps of integers of 16 bits. -/
def levelsBinding : Binding := ⟨"levels", .map (.int .w16), false⟩

theorem decoded_written_again_levels :
    ∃ v, readColumn .universal levelsBinding unevenText = .ok v
      ∧ v.text = "\x7b\"b\":32767,\"a\":-20\x7d"
      ∧ OfKind (.map (.int .w16)) v
      ∧ ∃ p stored, fieldParameter ⟨"levels", .map (.int .w16), false, false⟩ (some v) .universal
          = .ok (some p)
        ∧ cellText (some p) = some stored ∧ stored ≠ ""
        ∧ readColumn .universal levelsBinding stored = .ok v := by
  have hcolumn : (match readColumn .universal levelsBinding unevenText with
      | .ok v => v.isDoubleFree && v.text = "\x7b\"b\":32767,\"a\":-20\x7d"
      | .error _ => false) = true := by
    decide +kernel
  split at hcolumn
  · next v hread =>
    obtain ⟨hfree, htext⟩ := Bool.and_eq_true_iff.mp hcolumn
    obtain ⟨hkind, hagain⟩ := decoded_written_again (by decide) (by decide) hread hfree
    exact ⟨v, hread, of_decide_eq_true htext, hkind, hagain _ rfl rfl⟩
  · cases hcolumn

end Columns

end DualStore.Relational
