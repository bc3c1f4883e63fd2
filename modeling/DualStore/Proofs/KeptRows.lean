import DualStore.Plan.Request
import DualStore.Proofs.RowCells

/-!
# Databases that keep rows

What is assumed of a database about the table of an entity type. The database is known by the texts
and the parameters of statements only: which column a value is for is told by the text of the
statement and the place of the parameter.

* `insertForm`, `updateForm`, `selectForm`: the texts of statements;
* `IsBoundTo`, `GoesWith`: the parameters that go with columns;
* `FindsRows`, `KeepsRows`, `UpdatesRows`: what is assumed of a database;
* `FindsRows.byId`, `KeepsRows.insert`, `UpdatesRows.update`: what follows for the statements of a
  unit of work;
* `HasRow`, `Extends`: the row of an entity is there, and rows stay.
-/

namespace DualStore.Relational

open Model

/-! ## Texts of statements -/

/-- The text that inserts a row with a parameter for each column. -/
def insertForm (table : String) (columns : List String) : String :=
  "INSERT INTO " ++ table ++ " (" ++ Text.joinWith ", " columns ++ ") VALUES ("
    ++ Text.joinWith ", " (columns.map fun _ => "?") ++ ")"

/-- The text that gives each column a parameter in the rows of an identity, which is the last
parameter. -/
def updateForm (table : String) (columns : List String) : String :=
  "UPDATE " ++ table ++ " SET " ++ Text.joinWith ", " (columns.map fun column => column ++ " = ?")
    ++ " WHERE id = ?"

/-- The text that selects columns of the rows of an identity, which is the only parameter. -/
def selectForm (table : String) (columns : List String) : String :=
  "SELECT " ++ Text.joinWith ", " columns ++ " FROM " ++ table ++ " WHERE id = ?"

theorem text_insert (table : String) (values : List (String × Value)) :
    (Change.insert table values).text = insertForm table (Keyed.keys values) := by
  rw [insertForm, List.map_const']
  rfl

theorem identityClause_eq : identityClause = " WHERE id = ?" := by decide

theorem text_update (table : String) (values : List (String × Value)) (id : Int) :
    (Change.update table values id).text = updateForm table (Keyed.keys values) := by
  unfold updateForm
  rw [← identityClause_eq]
  rfl

theorem text_byId (columns : List String) (table : String) (id : Int) :
    (Query.byId columns table id).text = selectForm table columns := by
  unfold selectForm
  rw [← identityClause_eq]
  rfl

/-! ## Parameters -/

/-- Whether a field may write a text: any that is no plain integer. -/
def mayWriteText (field : Field) : Bool := !field.kind.isInteger || field.isDate

/-- The values that are bound to a column of an entity type: integers, and texts if its field may
write texts. -/
def IsBoundTo (m : EntityMeta) (column : String) : Value → Prop
  | .integer _ => True
  | .text _ => ∃ field ∈ Field.relational m.fields, field.name = column ∧ mayWriteText field = true
  | _ => False

/-- Parameters that go with columns of an entity type: one for each, and no column twice. -/
structure GoesWith (m : EntityMeta) (columns : List String) (parameters : List Value) : Prop where
  nonempty : columns ≠ []
  nodup : columns.Nodup
  declared : ∀ column ∈ columns, column ∈ allColumns m
  bound : List.Forall₂ (IsBoundTo m) columns parameters

section Parameters

variable {m : EntityMeta} {zone : Calendar.Zone} {body : Fields}

/-- What a field writes is bound to its column. -/
theorem isBoundTo_fieldParameter {field : Field} (hfield : field ∈ Field.relational m.fields)
    {v : Json} {p : Value} (h : Writes zone field v p) : IsBoundTo m field.name p := by
  have hwrites : field.kind.isInteger = false ∨ field.isDate = true →
      mayWriteText field = true := by
    rintro (hkind | hdate)
    · simp [mayWriteText, hkind]
    · simp [mayWriteText, hdate]
  cases h with
  | integer => trivial
  | date _ _ hdate => exact ⟨field, hfield, rfl, hwrites (.inr hdate.1)⟩
  | text hkind | list hkind | map hkind =>
    exact ⟨field, hfield, rfl, hwrites (.inl (by rw [hkind]; rfl))⟩

theorem isBoundTo_columnValues {fields : List Field} {values : List (String × Value)}
    (h : columnValues zone body fields = .ok values)
    (hfields : ∀ field ∈ fields, field.kind.isRelational = true →
      field ∈ Field.relational m.fields) :
    ∀ v ∈ values, IsBoundTo m v.1 v.2 := by
  induction fields generalizing values with
  | nil =>
    rw [← Except.ok.inj h]
    simp
  | cons field rest ih =>
    obtain ⟨hfirst, hothers⟩ := List.forall_mem_cons.mp hfields
    obtain ⟨bound, others, hbound, hrest, rfl⟩ := columnValues_cons h
    intro v hv
    rcases List.mem_append.mp hv with hmem | hmem
    · obtain ⟨p, hp, rfl⟩ := List.mem_map.mp hmem
      obtain rfl : bound = some p := by simpa using hp
      cases hvalue : Keyed.get? field.name body with
      | none =>
        rw [hvalue] at hbound
        cases Except.ok.inj hbound
      | some value =>
        rw [hvalue] at hbound
        have hwrites := writes_of_fieldParameter hbound
        exact isBoundTo_fieldParameter (hfirst hwrites.isRelational) hwrites
    · exact ih hrest hothers v hmem

/-- The columns and the values of a statement go with each other. -/
theorem goesWith_entries {values : List (String × Value)} (hne : values ≠ [])
    (hnodup : (Keyed.keys values).Nodup) (hdeclared : ∀ column ∈ Keyed.keys values,
      column ∈ allColumns m) (hbound : ∀ v ∈ values, IsBoundTo m v.1 v.2) :
    GoesWith m (Keyed.keys values) (values.map Prod.snd) := by
  refine ⟨by simpa [Keyed.keys] using hne, hnodup, hdeclared, ?_⟩
  rw [Keyed.keys, List.forall₂_map_left_iff, List.forall₂_map_right_iff, List.forall₂_same]
  exact hbound

theorem zip_entries (values : List (String × Value)) :
    (Keyed.keys values).zip (values.map Prod.snd) = values := by
  rw [Keyed.keys, List.zip_map']
  exact List.map_id values

end Parameters

/-! ## What is assumed -/

/-- What is assumed of a database about finding rows of an entity type, which are seen by `row`: the
row of a key is found with the columns that are asked for. -/
structure FindsRows (answer : (r : Request) → σ → r.Answer × σ) (m : EntityMeta)
    (row : σ → Int → Option (String → Option String)) : Prop where
  found : ∀ (q : Query) (columns : List String) (id : Int) (s : σ),
    columns ≠ [] → (∀ column ∈ columns, column ∈ allColumns m) →
    q.text = selectForm m.table columns → q.parameters = [.integer id] →
    ∃ names after, answer (.query q) s
      = ((.ok ⟨names, (row s id).toList.map fun text => columns.map text⟩ :
          Except Sql.SqlError RawRows), after)

/-- What is assumed of a database about inserted rows of an entity type. A row that is inserted gets
a key that no row has, the one that is given if there is one, else the one that is reported; each of
its columns keeps the parameter in the place of the column, the other columns are null, and the
other rows stay. A fresh identity changes no rows. -/
structure KeepsRows (answer : (r : Request) → σ → r.Answer × σ) (m : EntityMeta)
    (row : σ → Int → Option (String → Option String)) : Prop extends FindsRows answer m row where
  inserted : ∀ (c : Change) (columns : List String) (s after : σ) (outcome : Outcome),
    c.text = insertForm m.table columns → GoesWith m columns c.parameters →
    answer (.change c) s = ((.ok outcome : Except Sql.SqlError Outcome), after) →
    outcome.touched ≠ 0 →
    ∃ key, row s key = none ∧ row after key = some (rowText (columns.zip c.parameters) key) ∧
      (∀ other, other ≠ key → row after other = row s other) ∧
      (∀ id, Keyed.get? idColumn (columns.zip c.parameters) = some (.integer id) → key = id) ∧
      (Keyed.get? idColumn (columns.zip c.parameters) = none →
        ∀ reported, outcome.key = some reported → 0 < reported → key = reported)
  identity : ∀ (node : Int) (s : σ), row (answer (.identity node) s).2 = row s

/-- What is assumed of a database about updated rows of an entity type. An update that succeeds
looks at every row: one whose column of the identity is what the statement asks for gets each
parameter in the column of its place and keeps its other columns, and every other row stays. The
column of the identity holds the key. -/
structure UpdatesRows (answer : (r : Request) → σ → r.Answer × σ) (m : EntityMeta)
    (row : σ → Int → Option (String → Option String)) : Prop extends FindsRows answer m row where
  updated : ∀ (c : Change) (columns : List String) (values : List Value) (id : Int) (s after : σ)
    (outcome : Outcome), c.text = updateForm m.table columns →
    c.parameters = values ++ [.integer id] → GoesWith m columns values → idColumn ∉ columns →
    answer (.change c) s = ((.ok outcome : Except Sql.SqlError Outcome), after) →
    ∀ key, row after key = (row s key).map fun text =>
      if text idColumn = some (Decimal.intText id) then overwritten (columns.zip values) text
      else text
  keyed : ∀ (s : σ) (key : Int) (text : String → Option String),
    row s key = some text → text idColumn = some (Decimal.intText key)

section Statements

variable {answer : (r : Request) → σ → r.Answer × σ} {m : EntityMeta}
  {row : σ → Int → Option (String → Option String)} {values : List (String × Value)} {s after : σ}
  {outcome : Outcome}

/-- The row of an identity is found with all columns. -/
theorem FindsRows.byId (h : FindsRows answer m row) (id : Int) (s : σ) :
    ∃ names after, answer (.query (.byId (allColumns m) m.table id)) s
      = ((.ok ⟨names, (row s id).toList.map fun text => (allColumns m).map text⟩ :
          Except Sql.SqlError RawRows), after) :=
  h.found _ (allColumns m) id s (List.cons_ne_nil _ _) (fun _ hmem => hmem)
    (text_byId (allColumns m) m.table id) rfl

/-- **The statement of an insert** puts each value into the column of its name. -/
theorem KeepsRows.insert (h : KeepsRows answer m row)
    (hvalues : GoesWith m (Keyed.keys values) (values.map Prod.snd))
    (hanswer : answer (.change (.insert m.table values)) s
      = ((.ok outcome : Except Sql.SqlError Outcome), after)) (htouched : outcome.touched ≠ 0) :
    ∃ key, row s key = none ∧ row after key = some (rowText values key) ∧
      (∀ other, other ≠ key → row after other = row s other) ∧
      (∀ id, Keyed.get? idColumn values = some (.integer id) → key = id) ∧
      (Keyed.get? idColumn values = none →
        ∀ reported, outcome.key = some reported → 0 < reported → key = reported) := by
  have hparameters : (Change.insert m.table values).parameters = values.map Prod.snd := rfl
  have hinserted := h.inserted _ _ _ _ _ (text_insert m.table values) hvalues hanswer htouched
  rw [hparameters, zip_entries] at hinserted
  exact hinserted

/-- **The statement of an update** overwrites columns in the row of its identity. Every other row
stays, since its column of the identity is another one. -/
theorem UpdatesRows.update (h : UpdatesRows answer m row) {id : Int}
    (hvalues : GoesWith m (Keyed.keys values) (values.map Prod.snd))
    (hid : idColumn ∉ Keyed.keys values)
    (hanswer : answer (.change (.update m.table values id)) s
      = ((.ok outcome : Except Sql.SqlError Outcome), after)) :
    row after id = (row s id).map (overwritten values) ∧
      ∀ other, other ≠ id → row after other = row s other := by
  have hupdated := h.updated _ _ _ id _ _ _ (text_update m.table values id) rfl hvalues hid hanswer
  rw [zip_entries] at hupdated
  constructor
  · rw [hupdated]
    cases hrow : row s id with
    | none => rfl
    | some text => rw [Option.map_some, Option.map_some, if_pos (h.keyed s id text hrow)]
  · intro other hne
    rw [hupdated]
    cases hrow : row s other with
    | none => rfl
    | some text =>
      have hkey : text idColumn ≠ some (Decimal.intText id) := by
        rw [h.keyed s other text hrow]
        exact fun heq => hne (Decimal.intText_inj (Option.some.inj heq))
      rw [Option.map_some, if_neg hkey]

end Statements

/-! ## Rows of entities -/

/-- The row of an entity is there under an identity. -/
def HasRow (zone : Calendar.Zone) (m : EntityMeta) (rows : Int → Option (String → Option String))
    (body : Fields) (id : Int) : Prop :=
  ∃ values, columnValues zone body (Field.persisted m.fields) = .ok values ∧
    rows id = some (rowText values id)

/-- Rows that are there stay there. -/
def Extends (before after : Int → Option (String → Option String)) : Prop :=
  ∀ key text, before key = some text → after key = some text

theorem Extends.hasRow {before after : Int → Option (String → Option String)}
    (h : Extends before after) {zone : Calendar.Zone} {m : EntityMeta} {body : Fields} {id : Int}
    (hrow : HasRow zone m before body id) : HasRow zone m after body id := by
  obtain ⟨values, hvalues, hid⟩ := hrow
  exact ⟨values, hvalues, h _ _ hid⟩

end DualStore.Relational
