import Mathlib.Data.List.Nodup
import DualStore.Proofs.DateRows
import DualStore.Sql.Change

/-!
# Tables with keys

In a table whose rows have all columns, an integer key first and no key twice, a key stands for at
most one row. Inserts, updates and deletes leave a table so, and leave its shape as it is.

* `Table.IsKeyed`, `Table.row?`: such tables, and the row of a key;
* `row?_eq_some_iff`, `filter_key`: the row of a key among the rows;
* `insert_cases`, `update_cases`: what a statement has done;
* `Changed.OfKeyed`, `ofKeyed_insert`, `ofKeyed_update`, `ofKeyed_delete`: one statement on a table;
* `Database.IsKept`, `isKept_execute`: one statement on a database.
-/

namespace DualStore.Sql

open Relational (mem_of_mem_filterRows)

/-- A table whose rows have all columns, an integer key first, and no key twice. -/
structure Table.IsKeyed (t : Table) : Prop where
  rows : ∀ row ∈ t.rows, ∃ key rest, row = .integer key :: rest
  width : ∀ row ∈ t.rows, row.length = t.shape.columns.length
  distinct : (t.rows.map Row.key).Nodup

/-- The row of a key. -/
def Table.row? (t : Table) (key : Int) : Option Row := t.rows.find? fun row => Row.key row = key

section Keyed

variable {t : Table}

/-- A key stands for the only row that has it. -/
theorem row?_eq_some_iff (h : t.IsKeyed) {key : Int} {row : Row} :
    t.row? key = some row ↔ row ∈ t.rows ∧ Row.key row = key := by
  constructor
  · intro hfind
    exact ⟨List.mem_of_find?_eq_some hfind, by simpa using List.find?_some hfind⟩
  · rintro ⟨hmem, hkey⟩
    cases hfind : t.row? key with
    | none =>
      have hnone := List.find?_eq_none.mp hfind row hmem
      exact absurd (decide_eq_true hkey) hnone
    | some other =>
      have hother := List.mem_of_find?_eq_some hfind
      have hsame : Row.key other = key := by simpa using List.find?_some hfind
      rw [List.inj_on_of_nodup_map h.distinct hother hmem (hsame.trans hkey.symm)]

theorem row?_eq_none_iff {key : Int} :
    t.row? key = none ↔ ∀ row ∈ t.rows, Row.key row ≠ key := by
  rw [Table.row?, List.find?_eq_none]
  simp

theorem hasKey_eq_false_iff {key : Int} : t.hasKey key = false ↔ t.row? key = none := by
  rw [row?_eq_none_iff, Table.hasKey, List.any_eq_false]
  simp

/-- The rows of a key are the row of the key. -/
theorem filter_key (h : t.IsKeyed) (key : Int) :
    (t.rows.filter fun row => Row.key row = key) = (t.row? key).toList := by
  have hnodup : (t.rows.filter fun row => Row.key row = key).Nodup :=
    (List.Nodup.of_map _ h.distinct).filter _
  cases hrow : t.row? key with
  | none =>
    rw [row?_eq_none_iff] at hrow
    simpa using hrow
  | some row =>
    rw [row?_eq_some_iff h] at hrow
    refine List.perm_singleton.mp ?_
    refine (List.perm_ext_iff_of_nodup hnodup (by simp)).mpr fun other => ?_
    rw [List.mem_filter, decide_eq_true_eq, List.mem_singleton]
    constructor
    · rintro ⟨hmem, hkey⟩
      exact List.inj_on_of_nodup_map h.distinct hmem hrow.1 (hkey.trans hrow.2.symm)
    · rintro rfl
      exact hrow

theorem insertRow_perm (row : Row) (rows : List Row) : (insertRow row rows).Perm (row :: rows) := by
  induction rows with
  | nil => exact .refl _
  | cons other rest ih =>
    rw [insertRow]
    split
    · exact .refl _
    · exact (ih.cons other).trans (.swap row other rest)

/-- Putting a row with a new key to some of the rows of a table leaves a table with keys. -/
theorem isKeyed_insertRow (h : t.IsKeyed) {others : List Row} (hothers : others.Sublist t.rows)
    {key : Int} {rest : Row} (hkey : ∀ row ∈ others, Row.key row ≠ key)
    (hwidth : rest.length + 1 = t.shape.columns.length) (greatest : Int) :
    Table.IsKeyed ⟨t.shape, insertRow (.integer key :: rest) others, greatest⟩ := by
  have hperm := insertRow_perm (.integer key :: rest) others
  refine ⟨fun row hrow => ?_, fun row hrow => ?_, ?_⟩
  · rcases List.mem_cons.mp (hperm.mem_iff.mp hrow) with rfl | hold
    · exact ⟨key, rest, rfl⟩
    · exact h.rows row (hothers.subset hold)
  · rcases List.mem_cons.mp (hperm.mem_iff.mp hrow) with rfl | hold
    · exact hwidth
    · exact h.width row (hothers.subset hold)
  · rw [(hperm.map Row.key).nodup_iff, List.map_cons, List.nodup_cons]
    refine ⟨fun hmem => ?_, h.distinct.sublist (hothers.map Row.key)⟩
    obtain ⟨row, hrow, hsame⟩ := List.mem_map.mp hmem
    exact hkey row hrow hsame

/-- A row put in the place of the one of its key. -/
theorem row?_put {t after : Table} (h : t.IsKeyed) (hafter : after.IsKeyed) {new : Row}
    (hrows : after.rows.Perm (new :: t.rows.filter fun row => Row.key row ≠ Row.key new))
    (key : Int) : after.row? key = if key = Row.key new then some new else t.row? key := by
  ext row
  rw [row?_eq_some_iff hafter, hrows.mem_iff, List.mem_cons, List.mem_filter, decide_eq_true_eq]
  split
  · next heq =>
    rw [heq, Option.some.injEq]
    constructor
    · rintro ⟨rfl | ⟨-, hne⟩, hkey⟩
      · rfl
      · exact absurd hkey hne
    · rintro rfl
      exact ⟨.inl rfl, rfl⟩
  · next hne =>
    rw [row?_eq_some_iff h]
    constructor
    · rintro ⟨rfl | ⟨hmem, -⟩, hkey⟩
      · exact absurd hkey.symm hne
      · exact ⟨hmem, hkey⟩
    · rintro ⟨hmem, hkey⟩
      exact ⟨.inr ⟨hmem, fun heq => hne (hkey.symm.trans heq)⟩, hkey⟩

end Keyed

/-! ## One statement on a table -/

/-- What a statement leaves behind of a table: one of the same shape whose rows have keys. -/
structure Changed.OfKeyed (t : Table) (changed : Changed) : Prop where
  shape : changed.table.shape = t.shape
  keyed : changed.table.IsKeyed

section Change

variable {t : Table} {changed : Changed}

/-- The row of values at places, before it gets its key. -/
def rowOfData (shape : TableDef) (indices : List Nat) (data : List Datum) : Row :=
  convertRow shape.columns (placeValues shape.columns.length (indices.zip data))

theorem length_placeValues (width : Nat) (values : List (Nat × Datum)) :
    (placeValues width values).length = width := by
  induction values with
  | nil => simp [placeValues, nulls]
  | cons v rest ih =>
    obtain ⟨i, d⟩ := v
    rw [placeValues, List.length_set, ih]

theorem length_convertRow (columns : List ColumnDef) (row : Row) :
    (convertRow columns row).length = row.length := by
  induction columns generalizing row with
  | nil => rw [convertRow]; simp
  | cons c columns ih =>
    cases row with
    | nil => rw [convertRow]; simp
    | cons d ds => rw [convertRow, List.length_cons, List.length_cons, ih]

/-- The end of an insert, when the row has its key. -/
theorem putRow_cases {rest : Row} {key : Int}
    (h : (if t.shape.discards then .ok ⟨t, 0, none⟩
      else if t.hasKey key then .error (takenKey t.shape)
      else if Decimal.int64Max < key then .error (.interrupted "database or disk is full")
      else .ok ⟨{ t with rows := insertRow (.integer key :: rest) t.rows
                         greatest := max t.greatest key }, 1, some key⟩) = Except.ok changed) :
    changed = ⟨t, 0, none⟩ ∨ t.row? key = none ∧
      changed = ⟨⟨t.shape, insertRow (.integer key :: rest) t.rows, max t.greatest key⟩, 1,
        some key⟩ := by
  split at h
  · exact .inl (Except.ok.inj h).symm
  split at h
  · cases h
  next hfree =>
  split at h
  · cases h
  · exact .inr ⟨hasKey_eq_false_iff.mp (Bool.eq_false_iff.mpr hfree), (Except.ok.inj h).symm⟩

/-- What an insert has done: nothing if the table discards its rows, else it has put a row with a
new key to the others. The key is the one that is given, if there is one. -/
theorem insert_cases {columns : List String} {values : List (Expr ColumnName)}
    (h : insert t columns values = .ok changed) :
    ∃ indices exprs data d rest key, columnIndices t.shape columns = .ok indices ∧
      resolveAll (Scope.find [] []) values = .ok exprs ∧ evalAll [] [] exprs = .ok data ∧
      rowOfData t.shape indices data = d :: rest ∧ (∀ n, d = .integer n → key = n) ∧
      (changed = ⟨t, 0, none⟩ ∨ t.row? key = none ∧
        changed = ⟨⟨t.shape, insertRow (.integer key :: rest) t.rows, max t.greatest key⟩, 1,
          some key⟩) := by
  rw [insert] at h
  obtain ⟨indices, hindices, h⟩ := bind_eq_ok h
  split at h
  · cases h
  obtain ⟨exprs, hexprs, h⟩ := bind_eq_ok h
  obtain ⟨data, hdata, h⟩ := bind_eq_ok h
  dsimp only at h
  rw [← rowOfData] at h
  cases hrow : rowOfData t.shape indices data with
  | nil =>
    rw [hrow] at h
    cases h
  | cons d rest =>
    rw [hrow] at h
    suffices ∃ key, (∀ n, d = .integer n → key = n) ∧ (changed = ⟨t, 0, none⟩ ∨
        t.row? key = none ∧ changed = ⟨⟨t.shape, insertRow (.integer key :: rest) t.rows,
          max t.greatest key⟩, 1, some key⟩) by
      obtain ⟨key, hkey, hchanged⟩ := this
      exact ⟨indices, exprs, data, d, rest, key, hindices, hexprs, hdata, hrow, hkey, hchanged⟩
    cases d with
    | null => exact ⟨t.freshKey, by simp, putRow_cases h⟩
    | integer n => exact ⟨n, by simp, putRow_cases h⟩
    | real _ | text _ =>
      obtain ⟨key, -, h⟩ := bind_eq_ok h
      exact ⟨key, by simp, putRow_cases h⟩

theorem ofKeyed_insert (ht : t.IsKeyed) {columns : List String} {values : List (Expr ColumnName)}
    (h : insert t columns values = .ok changed) : changed.OfKeyed t := by
  obtain ⟨indices, exprs, data, d, rest, key, -, -, -, hrow, -, hchanged⟩ := insert_cases h
  rcases hchanged with rfl | ⟨hnew, rfl⟩
  · exact ⟨rfl, ht⟩
  · have hwidth := congrArg List.length hrow
    rw [rowOfData, length_convertRow, length_placeValues, List.length_cons] at hwidth
    exact ⟨rfl, isKeyed_insertRow ht (.refl _) (row?_eq_none_iff.mp hnew) hwidth.symm _⟩

/-- What an update has done: the rows of which the condition is true, one after the other. -/
theorem update_cases {sets : List (String × Expr ColumnName)}
    {condition : Option (Expr ColumnName)} (h : update t sets condition = .ok changed) :
    ∃ places found rows, resolveSets t.shape sets = .ok places ∧
      resolveCondition t.shape condition = .ok found ∧ filterRows found t.rows = .ok rows ∧
      updateRows places t rows = .ok changed.table ∧ changed.touched = rows.length := by
  rw [update] at h
  obtain ⟨places, hplaces, h⟩ := bind_eq_ok h
  obtain ⟨found, hfound, h⟩ := bind_eq_ok h
  obtain ⟨rows, hrows, h⟩ := bind_eq_ok h
  obtain ⟨after, hafter, h⟩ := bind_eq_ok h
  rw [← Except.ok.inj h]
  exact ⟨places, found, rows, hplaces, hfound, hrows, hafter, rfl⟩

/-- An update that touches no row leaves the table as it is. -/
theorem update_untouched {sets : List (String × Expr ColumnName)}
    {condition : Option (Expr ColumnName)} (h : update t sets condition = .ok changed)
    (htouched : changed.touched = 0) : changed.table = t := by
  obtain ⟨places, found, rows, -, -, -, hafter, hlength⟩ := update_cases h
  obtain rfl : rows = [] := List.length_eq_zero_iff.mp (hlength.symm.trans htouched)
  exact (Except.ok.inj hafter).symm

theorem length_assignRow {columns : List ColumnDef} {old row assigned : Row}
    {sets : List (Nat × Expr Place)} (h : assignRow columns old row sets = .ok assigned) :
    assigned.length = row.length := by
  induction sets generalizing row with
  | nil => rw [← Except.ok.inj h]
  | cons set rest ih =>
    obtain ⟨i, e⟩ := set
    rw [assignRow] at h
    obtain ⟨d, -, h⟩ := bind_eq_ok h
    rw [ih h, List.length_set]

/-- Updating rows one after the other, by induction on the rows. -/
theorem isKeyed_updateRows {sets : List (Nat × Expr Place)} {rows : List Row} {after : Table}
    (ht : t.IsKeyed)
    (hrows : ∀ row ∈ rows, row ≠ [] ∧ row.length = t.shape.columns.length)
    (h : updateRows sets t rows = .ok after) : after.shape = t.shape ∧ after.IsKeyed := by
  induction rows generalizing t with
  | nil =>
    rw [← Except.ok.inj h]
    exact ⟨rfl, ht⟩
  | cons old rows ih =>
    obtain ⟨⟨hne, hwidth⟩, hrest⟩ := List.forall_mem_cons.mp hrows
    rw [updateRows] at h
    obtain ⟨row, hassign, h⟩ := bind_eq_ok h
    obtain ⟨key, -, h⟩ := bind_eq_ok h
    dsimp only at h
    split at h
    · cases h
    next htaken =>
    have hlength := (length_assignRow hassign).trans hwidth
    have htail : row.tail.length + 1 = t.shape.columns.length := by
      have hpos : 0 < old.length := List.length_pos_iff.mpr hne
      rw [List.length_tail]
      omega
    have hkeyed := isKeyed_insertRow ht
      (List.filter_sublist (p := fun r => Row.key r ≠ Row.key old))
      (by simpa using htaken) htail t.greatest
    obtain ⟨hshape, hafter⟩ := ih hkeyed hrest h
    exact ⟨hshape, hafter⟩

theorem ofKeyed_update (ht : t.IsKeyed) {sets : List (String × Expr ColumnName)}
    {condition : Option (Expr ColumnName)} (h : update t sets condition = .ok changed) :
    changed.OfKeyed t := by
  obtain ⟨places, found, rows, -, -, hrows, hafter, -⟩ := update_cases h
  have hwidth : ∀ row ∈ rows, row ≠ [] ∧ row.length = t.shape.columns.length := by
    intro row hrow
    have hmem := mem_of_mem_filterRows hrows hrow
    obtain ⟨key, rest, rfl⟩ := ht.rows row hmem
    exact ⟨by simp, ht.width _ hmem⟩
  obtain ⟨hshape, hkeyed⟩ := isKeyed_updateRows ht hwidth hafter
  exact ⟨hshape, hkeyed⟩

theorem ofKeyed_delete (ht : t.IsKeyed) {condition : Option (Expr ColumnName)}
    (h : delete t condition = .ok changed) : changed.OfKeyed t := by
  rw [delete] at h
  obtain ⟨found, -, h⟩ := bind_eq_ok h
  obtain ⟨rows, -, h⟩ := bind_eq_ok h
  rw [← Except.ok.inj h]
  refine ⟨rfl, fun row hrow => ?_, fun row hrow => ?_, ?_⟩
  · exact ht.rows row (List.mem_of_mem_filter hrow)
  · exact ht.width row (List.mem_of_mem_filter hrow)
  · exact ht.distinct.sublist (List.filter_sublist.map _)

end Change

/-! ## One statement on a database -/

/-- A database that has tables of these shapes, no two of one name, whose rows have keys. -/
structure Database.IsKept (shapes : List TableDef) (db : Database) : Prop where
  names : (shapes.map TableDef.name).Nodup
  shapes : db.map Table.shape = shapes
  tables : ∀ t ∈ db, t.IsKeyed

section Database

variable {shapes : List TableDef} {db : Database}

theorem mem_of_findTable {name : String} {t : Table} (h : findTable db name = .ok t) : t ∈ db := by
  unfold findTable at h
  split at h
  · next hfound =>
    rw [← Except.ok.inj h]
    exact List.mem_of_find?_eq_some hfound
  · cases h

theorem Database.IsKept.putTable (h : Database.IsKept shapes db) {t changed : Table} (ht : t ∈ db)
    (hshape : changed.shape = t.shape) (hkeyed : changed.IsKeyed) :
    Database.IsKept shapes (Sql.putTable changed db) := by
  have hsame : ∀ other ∈ db, other.shape.name = changed.shape.name →
      other.shape = changed.shape := by
    intro other hother hname
    have hnames := h.names
    rw [← h.shapes] at hnames
    rw [hshape] at hname ⊢
    exact List.inj_on_of_nodup_map hnames (List.mem_map_of_mem hother)
      (List.mem_map_of_mem ht) hname
  refine ⟨h.names, ?_, fun other hother => ?_⟩
  · rw [Sql.putTable, List.map_map, ← h.shapes]
    refine List.map_congr_left fun other hother => ?_
    rw [Function.comp_apply]
    split
    · next hname => exact (hsame other hother hname).symm
    · rfl
  · obtain ⟨before, hbefore, rfl⟩ := List.mem_map.mp hother
    split
    · exact hkeyed
    · exact h.tables before hbefore

/-- The table that was put there is found under its name. -/
theorem findTable_putTable {name : String} {t changed : Table} (ht : findTable db name = .ok t)
    (hshape : changed.shape = t.shape) : findTable (putTable changed db) name = .ok changed := by
  have hnames : ((fun u : Table => decide (foldCase u.shape.name = foldCase name)) ∘ fun other =>
      if other.shape.name = changed.shape.name then changed else other)
        = fun u => decide (foldCase u.shape.name = foldCase name) := by
    funext other
    rw [Function.comp_apply]
    split
    · next hname => rw [hname]
    · rfl
  unfold findTable at ht
  split at ht
  · next found hfound =>
    rw [findTable, putTable, List.find?_map, hnames, hfound, Option.map_some,
      if_pos (by rw [hshape, Except.ok.inj ht])]
  · cases ht

theorem changeTable_ok {name : String} {change : Table → Except SqlError Changed}
    {done : Executed} (h : changeTable db name change = .ok done) :
    ∃ t changed, findTable db name = .ok t ∧ change t = .ok changed ∧
      done = ⟨putTable changed.table db, changed.touched, changed.key⟩ := by
  rw [changeTable] at h
  obtain ⟨t, ht, h⟩ := bind_eq_ok h
  obtain ⟨changed, hchanged, h⟩ := bind_eq_ok h
  exact ⟨t, changed, ht, hchanged, (Except.ok.inj h).symm⟩

/-- **A statement leaves the tables of a database as they are in shape, and their rows with
keys.** -/
theorem isKept_execute (h : Database.IsKept shapes db) {command : Command} {done : Executed}
    (hdone : execute db command = .ok done) : Database.IsKept shapes done.database := by
  have hchange : ∀ (name : String) (change : Table → Except SqlError Changed),
      (∀ t changed, t.IsKeyed → change t = .ok changed → changed.OfKeyed t) →
      changeTable db name change = .ok done → Database.IsKept shapes done.database := by
    intro name change hkeeps hdone
    obtain ⟨t, changed, ht, hchanged, rfl⟩ := changeTable_ok hdone
    have hmem := mem_of_findTable ht
    have hof := hkeeps t changed (h.tables t hmem) hchanged
    exact h.putTable hmem hof.shape hof.keyed
  cases command with
  | select selection => cases hdone
  | insert table columns values =>
    exact hchange table _ (fun _ _ ht hchanged => ofKeyed_insert ht hchanged) hdone
  | update table sets condition =>
    exact hchange table _ (fun _ _ ht hchanged => ofKeyed_update ht hchanged) hdone
  | delete table condition =>
    exact hchange table _ (fun _ _ ht hchanged => ofKeyed_delete ht hchanged) hdone

end Database

end DualStore.Sql
