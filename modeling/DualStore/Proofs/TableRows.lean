import DualStore.Proofs.ChangeReading
import DualStore.Proofs.KeptRows
import DualStore.Proofs.TableCells

/-!
# Rows of an entity type in a table

The rows of a table as texts under the columns of an entity type, and what the statements of a unit
of work, read from their texts, do to them.

* `HasColumns`: a table has the columns of an entity type;
* `textsAt`: the row of a key as texts;
* `inserted_texts`, `updated_texts`, `columnText_valuesOf`: statements on a table;
* `prepare_insertForm`, `prepare_updateForm`, `query_selectForm`: the same statements as texts.
-/

namespace DualStore.Relational

open Model Sql

/-- Whether a name stands for a column in every statement. -/
def isColumn (name : String) : Bool := isIdentifier name && isColumnName name && isTableName name

/-- A table has the columns of an entity type: the first one has the key, no two have one name, and
none of integers belongs to a field that may write texts. -/
structure HasColumns (m : EntityMeta) (shape : TableDef) : Prop where
  table : isTableName m.table = true
  names : ∀ column ∈ allColumns m, isColumn column = true
  columns : ∀ column ∈ allColumns m, column ∈ shape.columns.map ColumnDef.name
  distinct : (shape.columns.map fun c => foldCase c.name).Nodup
  key : ∃ affinity rest, affinity ≠ .text ∧ shape.columns = ⟨idColumn, affinity⟩ :: rest
  texts : ∀ field ∈ Field.relational m.fields, mayWriteText field = true →
    ∀ c ∈ shape.columns, c.name = field.name → c.affinity ≠ .integer

/-- The columns of an entity type in a row, as texts. -/
def rowTexts (m : EntityMeta) (shape : TableDef) (row : Row) (column : String) : Option String :=
  if column ∈ allColumns m then cell shape row column else none

/-- The row of a key in a table, as texts. -/
def textsAt (m : EntityMeta) (t : Table) (key : Int) : Option (String → Option String) :=
  (t.row? key).map (rowTexts m t.shape)

section Table

variable {m : EntityMeta} {t : Table} {changed : Changed} {values : List (String × Value)}

namespace HasColumns

variable (h : HasColumns m t.shape)

include h

theorem named {columns : List String} (hdeclared : ∀ c ∈ columns, c ∈ allColumns m) :
    ∀ c ∈ columns, c ∈ t.shape.columns.map ColumnDef.name :=
  fun c hc => h.columns c (hdeclared c hc)

theorem holdsIdentities (ht : t.IsKeyed) : HoldsIdentities t := by
  obtain ⟨affinity, rest, haffinity, hcolumns⟩ := h.key
  exact ⟨h.distinct, ⟨_, rest, hcolumns, rfl, haffinity⟩, ht.rows⟩

theorem placeOf_id : placeOf t.shape idColumn = 0 := by
  obtain ⟨affinity, rest, -, hcolumns⟩ := h.key
  rw [placeOf, hcolumns, List.findIdx?_cons, if_pos (by simp)]
  rfl

/-- Only the column of the identity has the first place. -/
theorem placeOf_ne_zero {column : String} (hcolumn : column ∈ allColumns m)
    (hne : column ≠ idColumn) : placeOf t.shape column ≠ 0 := by
  intro hzero
  have hid : idColumn ∈ allColumns m := List.mem_cons_self
  exact hne (placeOf_inj h.distinct (h.columns column hcolumn) (h.columns idColumn hid)
    (hzero.trans h.placeOf_id.symm))

theorem keepTexts (hbound : ∀ v ∈ values, IsBoundTo m v.1 v.2) : KeepTexts t.shape values := by
  intro v hv c hc hname
  have hvalue := hbound v hv
  cases hkind : v.2 with
  | integer n => exact keepsText_integer c.affinity n
  | text s =>
    rw [hkind] at hvalue
    obtain ⟨field, hfield, hfieldName, htext⟩ := hvalue
    exact keepsText_text (h.texts field hfield htext c hc (hname.trans hfieldName.symm)) s
  | null | real _ | bool _ | list _ | map _ =>
    rw [hkind] at hvalue
    exact hvalue.elim

theorem rowTexts_id {key : Int} {rest : Row} :
    rowTexts m t.shape (.integer key :: rest) idColumn = some (Decimal.intText key) := by
  have hid : idColumn ∈ allColumns m := List.mem_cons_self
  rw [rowTexts, if_pos hid, cell, h.placeOf_id]
  rfl

end HasColumns

/-- The column of the identity has the text of the key. -/
theorem textsAt_id (h : HasColumns m t.shape) (ht : t.IsKeyed) {key : Int}
    {text : String → Option String} (htext : textsAt m t key = some text) :
    text idColumn = some (Decimal.intText key) := by
  obtain ⟨row, hrow, rfl⟩ := Option.map_eq_some_iff.mp htext
  obtain ⟨hmem, hkey⟩ := (row?_eq_some_iff ht).mp hrow
  obtain ⟨n, rest, rfl⟩ := ht.rows row hmem
  have hn : n = key := hkey
  rw [h.rowTexts_id, hn]

/-- The entries of columns and parameters that go with each other. -/
theorem GoesWith.entries {columns : List String} {parameters : List Value}
    (h : GoesWith m columns parameters) : Keyed.keys (columns.zip parameters) = columns ∧
      (columns.zip parameters).map Prod.snd = parameters ∧ columns.zip parameters ≠ [] ∧
      ∀ v ∈ columns.zip parameters, IsBoundTo m v.1 v.2 := by
  have hlength := h.bound.length_eq
  have hkeys : Keyed.keys (columns.zip parameters) = columns :=
    List.map_fst_zip (Nat.le_of_eq hlength)
  refine ⟨hkeys, List.map_snd_zip (Nat.le_of_eq hlength.symm), fun hnil => ?_, fun v hv => ?_⟩
  · rw [hnil] at hkeys
    exact h.nonempty hkeys.symm
  · exact (List.forall₂_iff_zip.mp h.bound).2 hv

section Entries

variable (h : GoesWith m (Keyed.keys values) (values.map Prod.snd))

include h

theorem GoesWith.areBound : ∀ v ∈ values, IsBoundTo m v.1 v.2 := by
  have hentries := h.entries.2.2.2
  rwa [zip_entries] at hentries

theorem GoesWith.get?_undeclared {column : String} (hcolumn : column ∉ allColumns m) :
    Keyed.get? column values = none :=
  (Keyed.get?_eq_none_iff _ _).mpr fun hkey => hcolumn (h.declared column hkey)

end Entries

/-! ## Statements on a table -/

/-- **An insert** that puts a row into the table gives it a key that no row has; the row has the
texts of the values, and the other rows stay. -/
theorem inserted_texts (h : HasColumns m t.shape) (ht : t.IsKeyed)
    (hvalues : GoesWith m (Keyed.keys values) (values.map Prod.snd))
    (hinsert : Sql.insert t (Keyed.keys values) ((values.map Prod.snd).map valueExpr) = .ok changed)
    (htouched : changed.touched ≠ 0) :
    ∃ key, changed.key = some key ∧ textsAt m t key = none ∧
      textsAt m changed.table key = some (rowText values key) ∧
      (∀ other, other ≠ key → textsAt m changed.table other = textsAt m t other) ∧
      ∀ id, Keyed.get? idColumn values = some (.integer id) → key = id := by
  have hof := ofKeyed_insert ht hinsert
  have hin := h.named hvalues.declared
  have hkeeps := h.keepTexts hvalues.areBound
  obtain ⟨indices, exprs, data, d, rest, key, hindices, hexprs, hdata, hrow, hgiven, hchanged⟩ :=
    insert_cases hinsert
  rw [columnIndices_map h.distinct hin] at hindices
  rw [resolveAll_values] at hexprs
  rw [← Except.ok.inj hexprs, evalAll_values] at hdata
  rw [← Except.ok.inj hindices, ← Except.ok.inj hdata] at hrow
  rcases hchanged with rfl | ⟨hnew, rfl⟩
  · exact absurd rfl htouched
  have hrows : (insertRow (.integer key :: rest) t.rows).Perm
      ((.integer key :: rest) :: t.rows.filter fun row => Row.key row ≠ key) := by
    rw [List.filter_eq_self.mpr (by simpa using row?_eq_none_iff.mp hnew)]
    exact insertRow_perm _ _
  have hafter : ∀ other, Table.row? ⟨t.shape, insertRow (.integer key :: rest) t.rows,
      max t.greatest key⟩ other
        = if other = key then some (.integer key :: rest) else t.row? other :=
    row?_put ht hof.keyed hrows
  refine ⟨key, rfl, ?_, ?_, fun other hne => ?_, fun id hid => ?_⟩
  · rw [textsAt, hnew]
    rfl
  · simp only [textsAt, hafter, if_true, Option.map_some, Option.some.injEq]
    funext column
    rw [rowText]
    by_cases hcolumn : column = idColumn
    · rw [if_pos hcolumn, hcolumn, h.rowTexts_id]
    · rw [if_neg hcolumn, rowTexts]
      split
      · next hmem =>
        exact cell_inserted h.distinct hin hkeeps hrow (h.columns column hmem)
          (h.placeOf_ne_zero hmem hcolumn) key
      · next hmem =>
        rw [hvalues.get?_undeclared hmem]
        rfl
  · simp only [textsAt, hafter, if_neg hne]
  · obtain ⟨affinity, more, haffinity, hcolumns⟩ := h.key
    have hd := rowOfData_placed h.distinct hin hrow (h.columns idColumn List.mem_cons_self)
    rw [h.placeOf_id, placedAt, hid, convertAt, hcolumns] at hd
    refine hgiven id (Option.some.inj hd |>.trans ?_)
    cases affinity with
    | text => exact absurd rfl haffinity
    | integer => rfl
    | none => rfl

theorem resolveSets_placed (h : HasColumns m t.shape)
    (hin : ∀ name ∈ Keyed.keys values, name ∈ t.shape.columns.map ColumnDef.name) :
    resolveSets t.shape (values.map fun v => (v.1, valueExpr v.2))
      = .ok ((placed t.shape values).map fun v => (v.1, .value v.2)) := by
  have hvalue : ∀ v, resolvePlain ((scopeOf t.shape).find []) (valueExpr v)
      = .ok (.value (.ofValue v)) := fun _ => rfl
  induction values with
  | nil => rfl
  | cons v rest ih =>
    obtain ⟨hfirst, hothers⟩ := List.forall_mem_cons.mp hin
    rw [List.map_cons, resolveSets, (exists_column h.distinct hfirst).1, hvalue, ih hothers]
    rfl

/-- Updating columns of a row, the one of its key apart, puts the row back in its place. -/
theorem updateRows_one (h : HasColumns m t.shape) (ht : t.IsKeyed)
    (hvalues : GoesWith m (Keyed.keys values) (values.map Prod.snd))
    (hid : idColumn ∉ Keyed.keys values) {key : Int} {old : Row} (hold : t.row? key = some old)
    {after : Table}
    (hupdate : updateRows ((placed t.shape values).map fun v => (v.1, .value v.2)) t [old]
      = .ok after) :
    ∃ row, Row.key row = key ∧ after.shape = t.shape ∧
      after.rows.Perm (row :: t.rows.filter fun other => Row.key other ≠ key) ∧
      rowTexts m t.shape row = overwritten values (rowTexts m t.shape old) := by
  have hin := h.named hvalues.declared
  have hkeeps := h.keepTexts hvalues.areBound
  obtain ⟨hmem, hkey⟩ := (row?_eq_some_iff ht).mp hold
  have hwidth := ht.width old hmem
  obtain ⟨n, others, rfl⟩ := ht.rows old hmem
  obtain rfl : n = key := hkey
  rw [updateRows] at hupdate
  obtain ⟨row, hassign, hupdate⟩ := bind_eq_ok hupdate
  have hcells : ∀ name ∈ t.shape.columns.map ColumnDef.name, _ := fun name hname =>
    cell_assigned h.distinct hin hkeeps hvalues.nodup hwidth hassign hname
  have hfirst : row[0]? = some (.integer n) := by
    have hnone : Keyed.get? idColumn values = none := (Keyed.get?_eq_none_iff _ _).mpr hid
    have hplaced := foldl_placed h.distinct hin hvalues.nodup hwidth
      (h.columns idColumn List.mem_cons_self)
    rw [assignRow_placed] at hassign
    rw [Except.ok.inj hassign, placedAt, hnone, h.placeOf_id] at hplaced
    exact hplaced
  obtain ⟨rest, rfl⟩ : ∃ rest, row = .integer n :: rest := by
    cases row with
    | nil => cases hfirst
    | cons d rest => exact ⟨rest, congrArg (· :: rest) (Option.some.inj hfirst)⟩
  obtain ⟨key, hkey, hupdate⟩ := bind_eq_ok hupdate
  obtain rfl : n = key := Except.ok.inj hkey
  dsimp only at hupdate
  split at hupdate
  · cases hupdate
  · refine ⟨.integer n :: rest, rfl, ?_, ?_, ?_⟩
    · rw [← Except.ok.inj hupdate]
    · rw [← Except.ok.inj hupdate]
      exact insertRow_perm _ _
    · funext column
      rw [rowTexts]
      split
      · next hcolumn =>
        rw [hcells column (h.columns column hcolumn), overwritten, overwritten, rowTexts,
          if_pos hcolumn]
      · next hcolumn =>
        rw [overwritten, hvalues.get?_undeclared hcolumn, rowTexts, if_neg hcolumn]

/-- **An update** of the rows of an identity overwrites columns in the row whose column of the
identity is that one, and no other row. -/
theorem updated_texts (h : HasColumns m t.shape) (ht : t.IsKeyed)
    (hvalues : GoesWith m (Keyed.keys values) (values.map Prod.snd))
    (hid : idColumn ∉ Keyed.keys values) {id : Int}
    (hupdate : Sql.update t (values.map fun v => (v.1, valueExpr v.2)) (some (equalTo idColumn id))
      = .ok changed) (key : Int) :
    textsAt m changed.table key = (textsAt m t key).map fun text =>
      if text idColumn = some (Decimal.intText id) then overwritten values text else text := by
  have hidentities := h.holdsIdentities ht
  obtain ⟨places, found, rows, hplaces, hfound, hrows, hafter, -⟩ := update_cases hupdate
  obtain ⟨affinity, haffinity, hcondition⟩ :=
    resolve_equal_identity t.shape.name hidentities rfl id
  rw [resolveSets_placed h (h.named hvalues.declared)] at hplaces
  have hscope : scopeOf t.shape = scopeAs t.shape.name t.shape := rfl
  rw [resolveCondition, hscope, hcondition] at hfound
  rw [← Except.ok.inj hfound, filterRows_equal haffinity id hidentities.rows,
    filter_key ht] at hrows
  rw [← Except.ok.inj hplaces, ← Except.ok.inj hrows] at hafter
  have hof := ofKeyed_update ht hupdate
  -- The column of the identity tells whether the row is the one that was asked for.
  have htold : ∀ text, textsAt m t key = some text →
      (text idColumn = some (Decimal.intText id) ↔ key = id) := by
    intro text htext
    rw [textsAt_id h ht htext, Option.some.injEq]
    exact ⟨fun heq => Decimal.intText_inj heq, fun heq => by rw [heq]⟩
  cases hrow : t.row? id with
  | none =>
    rw [hrow] at hafter
    rw [← Except.ok.inj hafter]
    cases htext : textsAt m t key with
    | none => rfl
    | some text =>
      have hne : key ≠ id := by
        rintro rfl
        rw [textsAt, hrow] at htext
        cases htext
      rw [Option.map_some, if_neg fun heq => hne ((htold text htext).mp heq)]
  | some old =>
    rw [hrow] at hafter
    obtain ⟨row, rfl, hshape, hperm, htexts⟩ := updateRows_one h ht hvalues hid hrow hafter
    have hput := row?_put ht hof.keyed hperm key
    rw [textsAt, hput, hshape]
    split
    · next heq =>
      rw [textsAt, heq, hrow, Option.map_some, Option.map_some, Option.map_some, htexts]
      rw [textsAt, heq, hrow] at htold
      rw [if_pos ((htold _ rfl).mpr rfl)]
    · next hne =>
      rw [← textsAt]
      cases htext : textsAt m t key with
      | none => rfl
      | some text => rw [Option.map_some, if_neg fun heq => hne ((htold text htext).mp heq)]

/-- The cells of a row that are selected are its texts. -/
theorem columnText_valuesOf {columns : List String}
    (hdeclared : ∀ column ∈ columns, column ∈ allColumns m) (shape : TableDef) (row : Row) :
    (valuesOf shape columns row).map Datum.columnText = columns.map (rowTexts m shape row) := by
  rw [valuesOf, List.map_map]
  refine List.map_congr_left fun column hcolumn => ?_
  rw [Function.comp_apply, rowTexts, if_pos (hdeclared column hcolumn), cell]
  cases row[placeOf shape column]? <;> rfl

end Table

/-! ## The same statements as texts -/

section Texts

variable {m : EntityMeta} {shape : TableDef} (h : HasColumns m shape)

include h

theorem HasColumns.areNames {columns : List String} (hdeclared : ∀ c ∈ columns, c ∈ allColumns m) :
    (∀ c ∈ columns, isIdentifier c = true) ∧ (∀ c ∈ columns, isColumnName c = true) ∧
      ∀ c ∈ columns, isTableName c = true := by
  have hnames : ∀ c ∈ columns,
      (isIdentifier c = true ∧ isColumnName c = true) ∧ isTableName c = true := fun c hc => by
    simpa only [isColumn, Bool.and_eq_true] using h.names c (hdeclared c hc)
  exact ⟨fun c hc => (hnames c hc).1.1, fun c hc => (hnames c hc).1.2, fun c hc => (hnames c hc).2⟩

omit h in
theorem clauseText_identity (id : Int) : clauseText [equals idColumn id] = identityClause :=
  rfl

/-- **The text of an insert** is read as giving each parameter to the column of its place. -/
theorem prepare_insertForm {columns : List String} {parameters : List Value}
    (hvalues : GoesWith m columns parameters) :
    prepare (insertForm m.table columns) parameters
      = .ok (.insert m.table columns (parameters.map valueExpr)) := by
  obtain ⟨hkeys, hparameters, hne, -⟩ := hvalues.entries
  obtain ⟨-, -, hnames⟩ := h.areNames hvalues.declared
  rw [← hkeys] at hnames
  have hprepare := prepare_insert h.table hnames hne
  have htext := text_insert m.table (columns.zip parameters)
  rw [Change.text] at htext
  rwa [htext, hkeys, hparameters] at hprepare

/-- **The text of an update** is read as giving each parameter but the last to the column of its
place, in the rows whose column of the identity is the last one. -/
theorem prepare_updateForm {columns : List String} {values : List Value}
    (hvalues : GoesWith m columns values) (id : Int) :
    prepare (updateForm m.table columns) (values ++ [.integer id])
      = .ok (.update m.table ((columns.zip values).map fun v => (v.1, valueExpr v.2))
          (some (equalTo idColumn id))) := by
  obtain ⟨hkeys, hparameters, hne, -⟩ := hvalues.entries
  obtain ⟨-, -, hnames⟩ := h.areNames hvalues.declared
  rw [← hkeys] at hnames
  have hregular : Predicate.AreRegular [equals idColumn id] :=
    ⟨⟨by decide, trivial⟩, trivial⟩
  have hprepare := prepare_update h.table hnames hne hregular
  have hcondition : conditionOf [equals idColumn id] = some (equalTo idColumn id) := by
    have hexpr : conditionOf [equals idColumn id]
        = some (.compare .eq (keyExpr idColumn) (.value (.integer id))) := rfl
    rw [hexpr, keyExpr_of_isIdentifier (by decide), equalTo]
  have htext := text_update m.table (columns.zip values) id
  rw [Change.text, update, ← clauseText_identity id] at htext
  rw [htext, hkeys, hparameters, hcondition] at hprepare
  exact hprepare

/-- **The text of a select** of the rows of an identity is answered with the row of that key. -/
theorem query_selectForm {s : Server} {client : String} {t : Table}
    (hfind : findTable (s.view client) m.table = .ok t) (hshape : t.shape = shape)
    (ht : t.IsKeyed) {columns : List String} (hne : columns ≠ [])
    (hdeclared : ∀ column ∈ columns, column ∈ allColumns m) (id : Int) :
    ∃ names, (s.query client (selectForm m.table columns) [.integer id]).1
      = .ok ⟨names, (textsAt m t id).toList.map fun text => columns.map text⟩ := by
  subst hshape
  obtain ⟨hidentifiers, hnames, -⟩ := h.areNames hdeclared
  have hreads := readsTable_matching hne hnames h.table
  have htext : (Query.matching columns m.table [equals idColumn id] []).text
      = selectForm m.table columns := by
    have hparts : (Query.matching columns m.table [equals idColumn id] []).text
        = Relational.select columns m.table ++ clauseText [equals idColumn id] ++ "" := rfl
    rw [hparts, String.append_empty, clauseText_identity]
    exact text_byId columns m.table id
  have hquery := hreads.query_identity (by decide) rfl hfind (h.holdsIdentities ht) id
  rw [htext] at hquery
  have hview : Server.view { committed := [t.onlyKey id] } client = [t.onlyKey id] := rfl
  have hkept : (t.onlyKey id).rows = (t.row? id).toList := filter_key ht id
  obtain ⟨names, hselect⟩ := select_columns h.distinct
    (findTable_withRows hfind (t.rows.filter fun row => Row.key row = id)) rfl
    (h.named hdeclared) hidentifiers
  refine ⟨names, hquery.trans ?_⟩
  rw [hreads.query_all, hview, Table.onlyKey, hselect, ← Table.onlyKey, hkept]
  cases hrow : t.row? id with
  | none => simp [Server.textRows, textsAt, hrow, Except.map]
  | some row =>
    simp [Server.textRows, textsAt, hrow, Except.map, columnText_valuesOf hdeclared]

end Texts

end DualStore.Relational
