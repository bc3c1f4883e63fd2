import DualStore.Proofs.ColumnCells

/-!
# Rows written and read

The row of an entity has a column for each field that writes one, under the name of the field. A
select of all columns of the entity type reads the row back as the object of the fields that are
left, with the identity in front.

* `keys_columnValues_sublist`, `get?_columnValues`: the columns that an entity writes;
* `rowText`, `overwritten`: a row that keeps what is bound to its columns, as texts;
* `restoredFields`: the fields of an entity that come back;
* `allColumns`, `allBindings`: the columns of an entity type and how they are read;
* `cellFields`, `readRow_text`: a row is read as the fields that its cells hold;
* `cellFields_rowText`: the cells of an entity's row hold its fields that come back.
-/

namespace DualStore.Relational

open Model

variable {zone : Calendar.Zone} {body : Fields}

/-! ## Columns -/

theorem fieldParameter_of_not_relational {field : Field} (hkind : field.kind.isRelational = false)
    {value : Option Json} {bound : Option Value}
    (h : fieldParameter field value zone = .ok bound) : bound = none := by
  cases value with
  | none => exact (Except.ok.inj h).symm
  | some v =>
    rcases fieldParameter_cases h with ⟨hnone, -⟩ | ⟨p, -, hwrites⟩
    · exact hnone
    · exact absurd hwrites.isRelational (by simp [hkind])

/-- Only fields with columns write columns, each at most one. -/
theorem keys_columnValues_sublist {fields : List Field} {values : List (String × Value)}
    (h : columnValues zone body fields = .ok values) :
    (Keyed.keys values).Sublist
      ((fields.filter fun field => field.kind.isRelational).map Field.name) := by
  induction fields generalizing values with
  | nil =>
    rw [columnValues, Except.ok.injEq] at h
    rw [← h]
    exact List.Sublist.refl _
  | cons field rest ih =>
    obtain ⟨bound, others, hbound, hothers, rfl⟩ := columnValues_cons h
    cases hkind : field.kind.isRelational with
    | false =>
      have hskip : ¬field.kind.isRelational = true := by simp [hkind]
      rw [fieldParameter_of_not_relational hkind hbound, List.filter_cons, if_neg hskip]
      exact ih hothers
    | true =>
      rw [List.filter_cons, if_pos hkind, List.map_cons]
      cases bound with
      | none => exact (ih hothers).cons field.name
      | some v => exact (ih hothers).cons_cons field.name

/-- The column of a field has the parameter of the field. -/
theorem get?_columnValues {fields : List Field} {values : List (String × Value)}
    (h : columnValues zone body fields = .ok values) (hnames : (fields.map Field.name).Nodup)
    {field : Field} (hfield : field ∈ fields) :
    fieldParameter field (Keyed.get? field.name body) zone
      = .ok (Keyed.get? field.name values) := by
  induction fields generalizing values with
  | nil => simp at hfield
  | cons other rest ih =>
    obtain ⟨bound, others, hbound, hothers, rfl⟩ := columnValues_cons h
    obtain ⟨hnew, hrest⟩ := List.nodup_cons.mp hnames
    rcases List.mem_cons.mp hfield with rfl | hfield
    · rw [hbound]
      cases bound with
      | none =>
        have hnone : Keyed.get? field.name others = none := by
          rw [Keyed.get?_eq_none_iff]
          intro hmem
          have hsome := (keys_columnValues_sublist hothers).subset hmem
          exact hnew ((List.filter_sublist.map _).subset hsome)
        simp [hnone]
      | some v => simp [Keyed.get?]
    · have hne : other.name ≠ field.name := by
        intro heq
        exact hnew (heq ▸ List.mem_map_of_mem hfield)
      rw [ih hothers hrest hfield]
      cases bound <;> simp [Keyed.get?, hne]

/-! ## Rows -/

/-- The columns of a row that keeps what is bound to them, as texts; the key of the row is its
identity. -/
def rowText (values : List (String × Value)) (key : Int) (column : String) : Option String :=
  if column = idColumn then some (Decimal.intText key) else cellText (Keyed.get? column values)

/-- The columns of a row after some of them were overwritten. -/
def overwritten (values : List (String × Value)) (text : String → Option String)
    (column : String) : Option String :=
  match Keyed.get? column values with
  | some v => cellText (some v)
  | none => text column

/-- The fields of an entity that come back from its row. -/
def restoredFields (fields : List Field) (body : Fields) : Fields :=
  (Field.relational fields).filterMap fun field =>
    (restored field (Keyed.get? field.name body)).map fun v => (field.name, v)

/-- All columns of an entity type: the identity, then the fields that have columns. -/
def allColumns (m : EntityMeta) : List String :=
  idColumn :: (Field.relational m.fields).map Field.name

/-- How all columns of an entity type are read. -/
def allBindings (m : EntityMeta) : List Binding :=
  ⟨m.idField, .int .w64, false⟩ :: (Field.relational m.fields).map Projection.bindingOf

theorem ofMeta_all (m : EntityMeta) :
    Projection.ofMeta m [] = .ok ⟨allColumns m, allBindings m⟩ := by
  have hwanted : ∀ name, Projection.isWanted [] name = true := fun name => rfl
  simp [Projection.ofMeta, hwanted, allColumns, allBindings, Function.comp_def]

/-- What is read from the column of a field in a row. -/
def cellOf (zone : Calendar.Zone) (text : String → Option String) (field : Field) :
    Except DecodeError (Option Json) :=
  readCell zone (Projection.bindingOf field) (text field.name)

/-- The fields whose cells hold something, up to the first cell that cannot be read. -/
def cellFields (cell : Field → Except DecodeError (Option Json)) :
    List Field → Except DecodeError Fields
  | [] => .ok []
  | field :: rest => do
    let value ← cell field
    let others ← cellFields cell rest
    .ok (value.elim others fun v => (field.name, v) :: others)

theorem cellFields_congr {cell other : Field → Except DecodeError (Option Json)}
    {fields : List Field} (h : ∀ field ∈ fields, cell field = other field) :
    cellFields cell fields = cellFields other fields := by
  induction fields with
  | nil => rfl
  | cons field rest ih =>
    obtain ⟨hfirst, hothers⟩ := List.forall_mem_cons.mp h
    rw [cellFields, cellFields, hfirst, ih hothers]

/-- Cells that hold the fields of an entity. -/
theorem cellFields_restored {cell : Field → Except DecodeError (Option Json)} {fields : List Field}
    (h : ∀ field ∈ fields, cell field = .ok (restored field (Keyed.get? field.name body))) :
    cellFields cell fields = .ok (fields.filterMap fun field =>
      (restored field (Keyed.get? field.name body)).map fun v => (field.name, v)) := by
  induction fields with
  | nil => rfl
  | cons field rest ih =>
    obtain ⟨hfirst, hothers⟩ := List.forall_mem_cons.mp h
    rw [cellFields, hfirst, ih hothers, List.filterMap_cons]
    cases restored field (Keyed.get? field.name body) <;> rfl

/-- The first column is read and its value put behind what was read before. -/
theorem readColumns_cons (before : Fields) (b : Binding) (text : Option String)
    (rest : List (Binding × Option String)) :
    readColumns zone before ((b, text) :: rest)
      = readCell zone b text >>= fun value =>
          readColumns zone (value.elim before fun v => Keyed.put b.key v before) rest := by
  cases text with
  | none => rfl
  | some text =>
    rw [readColumns, readCell]
    by_cases hempty : text = ""
    · rw [if_pos hempty, if_pos hempty]
      rfl
    · rw [if_neg hempty, if_neg hempty]
      cases readColumn zone b text <;> rfl

/-- The columns of fields are read behind what was read before. -/
theorem readColumns_fields {fields : List Field} {before : Fields} (text : String → Option String)
    (hnames : (Keyed.keys before ++ fields.map Field.name).Nodup) :
    readColumns zone before
        ((fields.map Projection.bindingOf).zip (fields.map fun field => text field.name))
      = (cellFields (cellOf zone text) fields).map (before ++ ·) := by
  induction fields generalizing before with
  | nil => simp [readColumns, cellFields, Except.map]
  | cons field rest ih =>
    rw [List.map_cons, List.map_cons, List.zip_cons_cons, readColumns_cons, cellFields]
    cases hcell : cellOf zone text field with
    | error e =>
      rw [cellOf] at hcell
      rw [hcell]
      rfl
    | ok value =>
      rw [cellOf] at hcell
      rw [hcell]
      cases value with
      | none =>
        have hrest : (Keyed.keys before ++ rest.map Field.name).Nodup :=
          hnames.sublist ((List.sublist_cons_self _ _).append_left _)
        refine (ih hrest).trans ?_
        cases cellFields (cellOf zone text) rest <;> rfl
      | some v =>
        have hnew : field.name ∉ Keyed.keys before := by
          intro hmem
          exact (List.nodup_append.mp hnames).2.2 _ hmem _ List.mem_cons_self rfl
        have hput : Keyed.put field.name v before = before ++ [(field.name, v)] :=
          Keyed.put_of_notMem hnew v
        have hrest : (Keyed.keys (before ++ [(field.name, v)]) ++ rest.map Field.name).Nodup := by
          simpa [Keyed.keys] using hnames
        have htail := ih hrest
        rw [← hput] at htail
        refine htail.trans ?_
        cases cellFields (cellOf zone text) rest with
        | error e => rfl
        | ok others => simp [hput, bind, Except.bind, Except.map]

/-- **A row is read as its identity and the fields that its cells hold.** -/
theorem readRow_text {m : EntityMeta} (hm : m.IsChecked) {text : String → Option String} {key : Int}
    (hkey : text idColumn = some (Decimal.intText key)) (hfits : Decimal.fitsInt64 key = true) :
    readRow zone (allBindings m) ((allColumns m).map text)
      = (cellFields (cellOf zone text) (Field.relational m.fields)).map
          ((m.idField, .int key) :: ·) := by
  have hwide : Decimal.fitsBits IntWidth.w64.bits key = true := hfits
  have hidentity : readCell zone ⟨m.idField, .int .w64, false⟩ (cellText (some (.integer key)))
      = .ok (some (.int key)) := readCell_integer rfl hwide
  have hsublist : (Field.relational m.fields).Sublist m.fields :=
    List.filter_sublist.trans List.filter_sublist
  have hnames : (Keyed.keys [(m.idField, Json.int key)]
      ++ (Field.relational m.fields).map Field.name).Nodup := by
    simp only [Keyed.keys, List.map_cons, List.map_nil, List.singleton_append, List.nodup_cons]
    refine ⟨?_, hm.names.sublist (hsublist.map _)⟩
    intro hmem
    obtain ⟨field, hfield, heq⟩ := List.mem_map.mp hmem
    exact hm.identity field (hsublist.subset hfield) heq
  have hlength : (allBindings m).length = ((allColumns m).map text).length := by
    simp [allColumns, allBindings]
  rw [readRow, if_pos hlength, allColumns, allBindings, List.map_cons, List.zip_cons_cons,
    readColumns_cons, hkey, List.map_map]
  refine Eq.trans (congrArg (· >>= _) hidentity) ?_
  exact readColumns_fields text hnames

/-- The cells of a row that an entity was written into hold its fields that come back. -/
theorem cellFields_rowText {m : EntityMeta} (hm : m.IsChecked)
    (hid : ∀ field ∈ m.fields, field.name ≠ idColumn) {values : List (String × Value)}
    (hvalues : columnValues zone body (Field.persisted m.fields) = .ok values) (key : Int)
    (hconforms : ∀ field ∈ Field.relational m.fields, ∀ v, Keyed.get? field.name body = some v →
      v ≠ .null → Conforms zone field v) :
    cellFields (cellOf zone (rowText values key)) (Field.relational m.fields)
      = .ok (restoredFields m.fields body) := by
  have hpersisted : (Field.persisted m.fields).Sublist m.fields := List.filter_sublist
  have hrelational : (Field.relational m.fields).Sublist (Field.persisted m.fields) :=
    List.filter_sublist
  refine cellFields_restored fun field hfield => ?_
  have hstored : field ∈ Field.persisted m.fields := hrelational.subset hfield
  have hdeclared : field ∈ m.fields := hpersisted.subset hstored
  have hbound := get?_columnValues hvalues (hm.names.sublist (hpersisted.map _)) hstored
  rw [cellOf, rowText, if_neg (hid field hdeclared)]
  exact readCell_fieldParameter (hm.dates field hdeclared) (hconforms field hfield) hbound

end DualStore.Relational
