import DualStore.Proofs.IdentityRows
import DualStore.Proofs.KeyedTables
import DualStore.Proofs.RowCells

/-!
# Cells of a table

The columns of a table by their names: an insert puts each value into the column of its name and
leaves nulls in the others, an update overwrites the columns of its values and leaves the others,
and a select of columns gives the cells of each row.

* `placeOf`, `cell`: the place of a column, and the text that a row has in it;
* `KeepsText`: a column keeps the text of a value;
* `cell_inserted`: the cells of a row that is inserted;
* `cell_assigned`: the cells of a row that is updated;
* `select_columns`: the cells of rows that are selected.
-/

namespace DualStore.Sql

open Relational

/-! ## Columns -/

/-- The place of the first column of a name; the first one if there is none. -/
def placeOf (shape : TableDef) (name : String) : Nat :=
  (shape.columns.findIdx? fun c => foldCase c.name = foldCase name).getD 0

def cell (shape : TableDef) (row : Row) (name : String) : Option String :=
  (row[placeOf shape name]?).bind Datum.columnText

theorem findIdx?_of_getElem? {columns : List ColumnDef}
    (hnames : (columns.map fun c => foldCase c.name).Nodup) {i : Nat} {column : ColumnDef}
    (h : columns[i]? = some column) :
    columns.findIdx? (fun c => foldCase c.name = foldCase column.name) = some i := by
  induction columns generalizing i with
  | nil => simp at h
  | cons other rest ih =>
    obtain ⟨hnew, hrest⟩ := List.nodup_cons.mp hnames
    rw [List.findIdx?_cons]
    cases i with
    | zero =>
      simp only [List.getElem?_cons_zero, Option.some.injEq] at h
      rw [h, if_pos (by simp)]
    | succ i =>
      simp only [List.getElem?_cons_succ] at h
      have hne : ¬foldCase other.name = foldCase column.name := by
        intro heq
        exact hnew (List.mem_map.mpr ⟨column, List.mem_of_getElem? h, heq.symm⟩)
      rw [ih hrest h, if_neg (by simpa using hne)]
      rfl

section Columns

variable {shape : TableDef} (hnames : (shape.columns.map fun c => foldCase c.name).Nodup)

include hnames

/-- A column that the table has under the name stands at the place of the name. -/
theorem exists_column {name : String} (hname : name ∈ shape.columns.map ColumnDef.name) :
    columnIndex shape name = .ok (placeOf shape name) ∧
      ∃ column, shape.columns[placeOf shape name]? = some column ∧ column.name = name := by
  obtain ⟨column, hmem, rfl⟩ := List.mem_map.mp hname
  obtain ⟨i, hi⟩ := List.getElem?_of_mem hmem
  have hfind := findIdx?_of_getElem? hnames hi
  have hplace : placeOf shape column.name = i := by
    rw [placeOf, hfind]
    rfl
  rw [hplace]
  refine ⟨?_, column, hi, rfl⟩
  rw [columnIndex, hfind]

theorem placeOf_lt {name : String} (hname : name ∈ shape.columns.map ColumnDef.name) :
    placeOf shape name < shape.columns.length := by
  obtain ⟨_, column, hcolumn, -⟩ := exists_column hnames hname
  exact (List.getElem?_eq_some_iff.mp hcolumn).1

theorem columnIndices_map {names : List String}
    (hin : ∀ name ∈ names, name ∈ shape.columns.map ColumnDef.name) :
    columnIndices shape names = .ok (names.map (placeOf shape)) := by
  induction names with
  | nil => rfl
  | cons name rest ih =>
    obtain ⟨hfirst, hothers⟩ := List.forall_mem_cons.mp hin
    rw [columnIndices, (exists_column hnames hfirst).1, ih hothers]
    rfl

/-- Different names have different places. -/
theorem placeOf_inj {a b : String} (ha : a ∈ shape.columns.map ColumnDef.name)
    (hb : b ∈ shape.columns.map ColumnDef.name) (h : placeOf shape a = placeOf shape b) :
    a = b := by
  obtain ⟨_, first, hfirst, rfl⟩ := exists_column hnames ha
  obtain ⟨_, second, hsecond, rfl⟩ := exists_column hnames hb
  rw [h, hsecond] at hfirst
  rw [Option.some.inj hfirst]

end Columns

/-! ## Values -/

/-- Whether a column of a type gives back the text of a value that is put into it. -/
def KeepsText (affinity : Affinity) (v : Value) : Prop :=
  (affinity.convert (.ofValue v)).columnText = (Datum.ofValue v).columnText

theorem keepsText_integer (affinity : Affinity) (n : Int) : KeepsText affinity (.integer n) := by
  cases affinity <;> rfl

theorem keepsText_text {affinity : Affinity} (h : affinity ≠ .integer) (s : String) :
    KeepsText affinity (.text s) := by
  cases affinity with
  | integer => exact absurd rfl h
  | text => rfl
  | none => rfl

/-- What a column of a table makes of a value at a place. -/
def convertAt (columns : List ColumnDef) (i : Nat) (d : Datum) : Datum :=
  ((columns[i]?).map fun c => c.affinity.convert d).getD d

theorem convertRow_getElem? (columns : List ColumnDef) (row : Row) (i : Nat) :
    (convertRow columns row)[i]? = (row[i]?).map (convertAt columns i) := by
  induction columns generalizing row i with
  | nil =>
    rw [convertRow]
    · cases row[i]? <;> rfl
    · simp
  | cons c columns ih =>
    cases row with
    | nil =>
      rw [convertRow]
      · rfl
      · simp
    | cons d ds =>
      cases i with
      | zero => rfl
      | succ i =>
        rw [convertRow, List.getElem?_cons_succ, List.getElem?_cons_succ, ih]
        rfl

theorem convertAt_null (columns : List ColumnDef) (i : Nat) :
    convertAt columns i .null = .null := by
  rw [convertAt]
  cases columns[i]? with
  | none => rfl
  | some c => cases h : c.affinity <;> simp [h, Affinity.convert, Datum.toNumber, Datum.toText]

theorem assignRow_placed (columns : List ColumnDef) (old row : Row) (values : List (Nat × Datum)) :
    assignRow columns old row (values.map fun v => (v.1, .value v.2))
      = .ok (values.foldl (fun row e => row.set e.1 (convertAt columns e.1 e.2)) row) := by
  induction values generalizing row with
  | nil => rfl
  | cons v rest ih =>
    rw [List.map_cons, assignRow, eval_value]
    exact ih _

/-- The columns of a table keep the texts of values that are put into them. -/
def KeepTexts (shape : TableDef) (values : List (String × Value)) : Prop :=
  ∀ v ∈ values, ∀ c ∈ shape.columns, c.name = v.1 → KeepsText c.affinity v.2

/-- A value that was put into the column of its name has its text there. -/
theorem columnText_convertAt {shape : TableDef} {values : List (String × Value)}
    (hnames : (shape.columns.map fun c => foldCase c.name).Nodup)
    (hkeeps : KeepTexts shape values) {name : String}
    (hname : name ∈ shape.columns.map ColumnDef.name) {v : Value}
    (hv : Keyed.get? name values = some v) :
    (convertAt shape.columns (placeOf shape name) (.ofValue v)).columnText = cellText (some v) := by
  obtain ⟨_, column, hcolumn, hcolumnName⟩ := exists_column hnames hname
  rw [convertAt, hcolumn]
  exact hkeeps (name, v) (Keyed.mem_of_get? hv) column (List.mem_of_getElem? hcolumn) hcolumnName

section Values

variable {shape : TableDef} {values : List (String × Value)}

/-- The values of columns at the places of the columns. -/
def placed (shape : TableDef) (values : List (String × Value)) : List (Nat × Datum) :=
  values.map fun v => (placeOf shape v.1, .ofValue v.2)

/-- The value of a column, if it is given one. -/
def placedAt (values : List (String × Value)) (name : String) : Option Datum :=
  (Keyed.get? name values).map Datum.ofValue

variable (hnames : (shape.columns.map fun c => foldCase c.name).Nodup)
  (hin : ∀ name ∈ Keyed.keys values, name ∈ shape.columns.map ColumnDef.name)

include hnames hin

theorem placeValues_placed {name : String} (hname : name ∈ shape.columns.map ColumnDef.name) :
    (placeValues shape.columns.length (placed shape values))[placeOf shape name]?
      = some ((placedAt values name).getD .null) := by
  have hlt := placeOf_lt hnames hname
  induction values with
  | nil => simp [placed, placedAt, placeValues, nulls, Keyed.get?, hlt]
  | cons v rest ih =>
    obtain ⟨hfirst, hothers⟩ := List.forall_mem_cons.mp hin
    rw [placed, List.map_cons, ← placed, placeValues, placedAt, Keyed.get?]
    by_cases heq : v.1 = name
    · rw [if_pos heq, heq, List.getElem?_set_self (by rw [length_placeValues]; exact hlt)]
      rfl
    · have hne : placeOf shape v.1 ≠ placeOf shape name :=
        fun hplace => heq (placeOf_inj hnames hfirst hname hplace)
      rw [if_neg heq, List.getElem?_set_ne hne]
      exact ih hothers

theorem foldl_placed (hnodup : (Keyed.keys values).Nodup) {row : Row}
    (hwidth : row.length = shape.columns.length) {name : String}
    (hname : name ∈ shape.columns.map ColumnDef.name) :
    ((placed shape values).foldl (fun row e => row.set e.1 (convertAt shape.columns e.1 e.2))
        row)[placeOf shape name]?
      = ((placedAt values name).map (convertAt shape.columns (placeOf shape name))).or
          row[placeOf shape name]? := by
  have hlt := placeOf_lt hnames hname
  induction values generalizing row with
  | nil => rfl
  | cons v rest ih =>
    obtain ⟨hfirst, hothers⟩ := List.forall_mem_cons.mp hin
    obtain ⟨hnew, hrest⟩ := List.nodup_cons.mp hnodup
    rw [placed, List.map_cons, ← placed, List.foldl_cons,
      ih hothers hrest (by rw [List.length_set, hwidth]), placedAt, placedAt, Keyed.get?]
    by_cases heq : v.1 = name
    · have hnone : Keyed.get? name rest = none := (Keyed.get?_eq_none_iff _ _).mpr (heq ▸ hnew)
      rw [if_pos heq, hnone, heq, List.getElem?_set_self (by rw [hwidth]; exact hlt)]
      rfl
    · have hne : placeOf shape v.1 ≠ placeOf shape name :=
        fun hplace => heq (placeOf_inj hnames hfirst hname hplace)
      rw [if_neg heq, List.getElem?_set_ne hne]

/-! ## Inserts and updates -/

/-- The row that is inserted with values for columns, before it gets its key. -/
theorem rowOfData_placed {row : Row}
    (hrow : rowOfData shape ((Keyed.keys values).map (placeOf shape))
      ((values.map Prod.snd).map .ofValue) = row) {name : String}
    (hname : name ∈ shape.columns.map ColumnDef.name) :
    row[placeOf shape name]? = some (convertAt shape.columns (placeOf shape name)
      ((placedAt values name).getD .null)) := by
  have hzip : ((Keyed.keys values).map (placeOf shape)).zip ((values.map Prod.snd).map .ofValue)
      = placed shape values := by
    rw [Keyed.keys, List.map_map, List.map_map, List.zip_map']
    rfl
  rw [← hrow, rowOfData, hzip, convertRow_getElem?, placeValues_placed hnames hin hname]
  rfl

/-- **A row that is inserted** has the text of each value in the column of its name, and nothing in
the other columns, the one of the key apart. -/
theorem cell_inserted (hkeeps : KeepTexts shape values) {d : Datum} {rest : Row}
    (hrow : rowOfData shape ((Keyed.keys values).map (placeOf shape))
      ((values.map Prod.snd).map .ofValue) = d :: rest) {name : String}
    (hname : name ∈ shape.columns.map ColumnDef.name) (hplace : placeOf shape name ≠ 0)
    (key : Int) : cell shape (.integer key :: rest) name = cellText (Keyed.get? name values) := by
  have hsame : (Datum.integer key :: rest)[placeOf shape name]?
      = (d :: rest)[placeOf shape name]? := by
    obtain ⟨i, hi⟩ := Nat.exists_eq_succ_of_ne_zero hplace
    rw [hi]
    rfl
  rw [cell, hsame, rowOfData_placed hnames hin hrow hname, placedAt]
  cases hv : Keyed.get? name values with
  | none => rw [Option.map_none, Option.getD_none, convertAt_null]; rfl
  | some v => exact columnText_convertAt hnames hkeeps hname hv

/-- **A row that is updated** has the text of each value in the column of its name; the other
columns stay. -/
theorem cell_assigned (hkeeps : KeepTexts shape values) (hnodup : (Keyed.keys values).Nodup)
    {old row : Row} (hwidth : old.length = shape.columns.length)
    (hrow : assignRow shape.columns old old ((placed shape values).map fun v => (v.1, .value v.2))
      = .ok row) {name : String} (hname : name ∈ shape.columns.map ColumnDef.name) :
    cell shape row name = overwritten values (cell shape old) name := by
  rw [assignRow_placed] at hrow
  rw [cell, ← Except.ok.inj hrow, foldl_placed hnames hin hnodup hwidth hname, placedAt,
    overwritten]
  cases hv : Keyed.get? name values with
  | none => rfl
  | some v => exact columnText_convertAt hnames hkeeps hname hv

end Values

/-! ## Selects -/

section Select

variable {shape : TableDef} (hnames : (shape.columns.map fun c => foldCase c.name).Nodup)

include hnames

/-- Names of columns stand for the columns at their places. -/
theorem selectedColumns_names (table : String) {columns : List String}
    (hin : ∀ c ∈ columns, c ∈ shape.columns.map ColumnDef.name)
    (hplain : ∀ c ∈ columns, isIdentifier c = true) :
    ∃ selected, selectedColumns (scopeAs table shape) (columnItems columns) = .ok selected ∧
      List.Forall₂ (fun c s => ∃ affinity, s.expr = .column ⟨placeOf shape c, affinity⟩)
        columns selected := by
  induction columns with
  | nil => exact ⟨[], rfl, .nil⟩
  | cons name rest ih =>
    obtain ⟨hfirst, hothers⟩ := List.forall_mem_cons.mp hin
    obtain ⟨hkey, hkeys⟩ := List.forall_mem_cons.mp hplain
    obtain ⟨selected, hselected, hexprs⟩ := ih hothers hkeys
    obtain ⟨_, column, hcolumn, hcolumnName⟩ := exists_column hnames hfirst
    have hscope : ((scopeAs table shape).map fun v => foldCase v.name).Nodup := by
      simpa [scopeAs, Function.comp_def] using hnames
    have hvisible : (scopeAs table shape)[placeOf shape name]?
        = some ⟨table, column.name, column.affinity⟩ := by
      rw [scopeAs, List.getElem?_map, hcolumn]
      rfl
    have hplaces := places_eq (c := ⟨none, name⟩) rfl hscope hvisible (by rw [hcolumnName]) 0
    rw [Nat.zero_add] at hplaces
    let first : Selected := ⟨ownName (scopeAs table shape) (.column ⟨placeOf shape name,
      column.affinity⟩), none, .column ⟨placeOf shape name, column.affinity⟩⟩
    refine ⟨first :: selected, ?_, .cons ⟨column.affinity, rfl⟩ hexprs⟩
    · rw [columnItems, List.map_cons, ← columnItems, selectedColumns, keyExpr_of_isIdentifier hkey,
        resolve, Scope.find, hplaces, hselected]
      rfl

def valuesOf (shape : TableDef) (columns : List String) (row : Row) : Row :=
  columns.map fun c => (row[placeOf shape c]?).getD .null

omit hnames in
theorem evalAll_columns {columns : List String} {selected : List Selected}
    (h : List.Forall₂ (fun c s => ∃ affinity, s.expr = .column ⟨placeOf shape c, affinity⟩)
      columns selected) (row : Row) :
    evalAll [] row (selected.map Selected.expr) = .ok (valuesOf shape columns row) := by
  induction h with
  | nil => rfl
  | cons hfirst _ ih =>
    obtain ⟨affinity, hexpr⟩ := hfirst
    rw [List.map_cons, hexpr, evalAll, ih]
    rfl

omit hnames in
theorem computeRows_columns {columns : List String} {selected : List Selected}
    (h : List.Forall₂ (fun c s => ∃ affinity, s.expr = .column ⟨placeOf shape c, affinity⟩)
      columns selected) (rows : List Row) :
    computeRows (selected.map Selected.expr) [] (rows.map fun row => ([], row))
      = .ok (rows.map fun row => (valuesOf shape columns row, [])) := by
  induction rows with
  | nil => rfl
  | cons row rows ih =>
    rw [List.map_cons, computeRows, evalAll_columns h, ih]
    rfl

/-- **A select of columns gives the cells of each row** in the order of the rows. -/
theorem select_columns {db : Database} {table : String} {t : Table}
    (hfind : findTable db table = .ok t) (hshape : t.shape = shape) {columns : List String}
    (hin : ∀ c ∈ columns, c ∈ shape.columns.map ColumnDef.name)
    (hplain : ∀ c ∈ columns, isIdentifier c = true) :
    ∃ names, Sql.select db (.ofTables false (columnItems columns) ⟨table, none⟩ [] none [] [] none)
      = .ok ⟨names, t.rows.map (valuesOf shape columns)⟩ := by
  obtain ⟨selected, hselected, hexprs⟩ := selectedColumns_names hnames table hin hplain
  obtain ⟨-, haggregates⟩ := selectedColumns_columns hselected
  have hunnamed : Unnamed (columnItems columns) := by
    intro item hitem
    obtain ⟨column, -, rfl⟩ := List.mem_map.mp hitem
    exact ⟨_, rfl⟩
  have hcalls : aggregatesOfAll (selected.map Selected.expr) = [] := by
    apply aggregatesOfAll_eq_nil
    intro e he
    obtain ⟨s, hs, rfl⟩ := List.mem_map.mp he
    exact haggregates s hs
  have hgroups : groupsOf ⟨scopeAs table t.shape, t.rows, 0, (scopeAs table t.shape).length⟩ []
      (groupDirections [] []) [] t.rows = .ok (t.rows.map fun row => ([], row)) := rfl
  refine ⟨selected.map Selected.name, ?_⟩
  rw [select_table hfind hunnamed, hshape, hselected]
  rw [hshape] at hgroups
  simp only [resolveWhere, bind, Except.bind, produce, filterRows_none, hcalls, List.map_nil,
    aggregatesOfAll, List.append_nil, hgroups, computeRows_columns hexprs]
  have hunordered : (fun a b : Row × List Datum => decide (orderByKeys [] a.2 b.2 = .lt))
      = fun _ _ => false := by
    funext a b
    simp [orderByKeys]
  rw [if_neg (by simp), hunordered, stableSort_id, List.map_map]
  rfl

end Select

end DualStore.Sql
