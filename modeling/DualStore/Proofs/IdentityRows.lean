import DualStore.Proofs.SameEntities
import DualStore.Proofs.SelectReading
import DualStore.Sql.Server

/-!
# Rows of one identity

A select of a table depends on the rows that its condition keeps, not on the others: it is answered
as without the condition where only these rows are in the table. So a statement that asks for the
column of the identity is answered from the rows of that identity. A name that no column has is
refused instead.

* `select_kept`, `select_refused`: a select with and without its condition;
* `HoldsIdentities`, `Table.onlyKey`: the rows of one identity;
* `ReadsTable`, `readsTable_matching`, `readsTable_counting`: statements that read one table;
* `ReadsTable.query_identity`, `ReadsTable.query_unknown`: such a statement that asks for a name;
* `query_count`: the number of rows.
-/

namespace DualStore.Sql

/-! ## Selects with a condition -/

/-- The columns in sight of a statement on one table, which it calls by the given name. -/
def scopeAs (name : String) (shape : TableDef) : Scope :=
  shape.columns.map fun c => ⟨name, c.name, c.affinity⟩

/-- The table with other rows. -/
def Table.withRows (t : Table) (rows : List Row) : Table := { t with rows := rows }

/-- Whether what is selected has no other names. -/
def Unnamed (items : List SelectItem) : Prop := ∀ item ∈ items, ∃ e, item = .expr e none

theorem aliasesOf_selectedColumns {scope : Scope} {items : List SelectItem} (h : Unnamed items)
    {selected : List Selected} (hselected : selectedColumns scope items = .ok selected) :
    aliasesOf selected = [] := by
  induction items generalizing selected with
  | nil =>
    rw [← Except.ok.inj hselected]
    rfl
  | cons item items ih =>
    obtain ⟨⟨e, rfl⟩, hrest⟩ := List.forall_mem_cons.mp h
    rw [selectedColumns] at hselected
    obtain ⟨found, -, hselected⟩ := bind_eq_ok hselected
    obtain ⟨rest, hfound, hselected⟩ := bind_eq_ok hselected
    rw [← Except.ok.inj hselected]
    simpa [aliasesOf] using ih hrest hfound

/-- The condition of a select with its names looked up, if there is one. -/
def resolveWhere (scope : Scope) : Option (Expr ColumnName) →
    Except SqlError (Option (Expr Place))
  | none => .ok none
  | some e => (resolvePlain (scope.find []) e).map some

theorem filterRows_none (rows : List Row) : filterRows none rows = .ok rows := by
  induction rows with
  | nil => rfl
  | cons row rows ih =>
    rw [filterRows, ih]
    rfl

section Select

variable {db : Database} {name : String} {t : Table} {items : List SelectItem}

/-- A select of one table looks up what is selected, then its condition, and computes the rows. -/
theorem select_table (h : findTable db name = .ok t) (hitems : Unnamed items)
    (condition : Option (Expr ColumnName)) :
    select db (.ofTables false items ⟨name, none⟩ [] condition [] [] none) = (do
      let selected ← selectedColumns (scopeAs name t.shape) items
      let found ← resolveWhere (scopeAs name t.shape) condition
      produce ⟨scopeAs name t.shape, t.rows, 0, (scopeAs name t.shape).length⟩ false
        ⟨selected, found, [], []⟩ none) := by
  have hrelation : relationOf db ⟨name, none⟩
      = .ok ⟨scopeAs name t.shape, t.rows, 0, (scopeAs name t.shape).length⟩ := by
    rw [relationOf, h]
    rfl
  rw [select, hrelation]
  simp only [bind, Except.bind, joinSteps, Resolved.ofParts, joinAll]
  cases hselected : selectedColumns (scopeAs name t.shape) items with
  | error e => rfl
  | ok selected =>
    have haliases := aliasesOf_selectedColumns hitems hselected
    cases condition with
    | none => rfl
    | some e =>
      simp only [haliases, resolveWhere]
      cases resolvePlain ((scopeAs name t.shape).find []) e <;> rfl

theorem findTable_withRows (h : findTable db name = .ok t) (rows : List Row) :
    findTable [t.withRows rows] name = .ok (t.withRows rows) := by
  have hname : foldCase t.shape.name = foldCase name := by
    unfold findTable at h
    split at h
    · next found hfound =>
      rw [← Except.ok.inj h]
      simpa using List.find?_some hfound
    · cases h
  rw [findTable, List.find?_cons_of_pos]
  exact decide_eq_true hname

theorem produce_kept {r : Relation} {selected : List Selected} {found : Expr Place}
    {kept : List Row} (h : filterRows (some found) r.rows = .ok kept) :
    produce r false ⟨selected, some found, [], []⟩ none
      = produce { r with rows := kept } false ⟨selected, none, [], []⟩ none := by
  simp only [produce, h, filterRows_none, bind, Except.bind]
  rfl

/-- A select depends on the rows that its condition keeps. -/
theorem select_kept (h : findTable db name = .ok t) (hitems : Unnamed items)
    {e : Expr ColumnName} {found : Expr Place} {kept : List Row}
    (hfound : resolvePlain ((scopeAs name t.shape).find []) e = .ok found)
    (hkept : filterRows (some found) t.rows = .ok kept) :
    select db (.ofTables false items ⟨name, none⟩ [] (some e) [] [] none)
      = select [t.withRows kept] (.ofTables false items ⟨name, none⟩ [] none [] [] none) := by
  have hshape : (t.withRows kept).shape = t.shape := rfl
  rw [select_table h hitems, select_table (findTable_withRows h kept) hitems, hshape]
  cases selectedColumns (scopeAs name t.shape) items with
  | error e => rfl
  | ok selected =>
    simp only [resolveWhere, hfound, Except.map, bind, Except.bind]
    exact produce_kept (r := ⟨_, _, _, _⟩) hkept

/-- A select whose condition cannot be looked up is refused for it, if nothing else is refused. -/
theorem select_refused (h : findTable db name = .ok t) (hitems : Unnamed items)
    {e : Expr ColumnName} {error : SqlError}
    (hfound : resolvePlain ((scopeAs name t.shape).find []) e = .error error) {output : Output}
    (hplain : select db (.ofTables false items ⟨name, none⟩ [] none [] [] none) = .ok output) :
    select db (.ofTables false items ⟨name, none⟩ [] (some e) [] [] none) = .error error := by
  rw [select_table h hitems] at hplain ⊢
  obtain ⟨selected, hselected, -⟩ := bind_eq_ok hplain
  rw [hselected]
  simp only [resolveWhere, hfound, Except.map, bind, Except.bind]

end Select

/-! ## The rows of an identity -/

/-- A table in which the column of the identity comes first and has a number in every row. -/
structure HoldsIdentities (t : Table) : Prop where
  names : (t.shape.columns.map fun c => foldCase c.name).Nodup
  column : ∃ first rest, t.shape.columns = first :: rest
    ∧ foldCase first.name = foldCase Relational.idColumn ∧ first.affinity ≠ .text
  rows : ∀ row ∈ t.rows, ∃ id rest, row = .integer id :: rest

/-- The table with the rows of one identity only. -/
def Table.onlyKey (t : Table) (id : Int) : Table :=
  t.withRows (t.rows.filter fun row => Row.key row = id)

/-- The condition that a column has a number. -/
def equalTo (key : String) (id : Int) : Expr ColumnName :=
  .compare .eq (.column ⟨none, key⟩) (.value (.integer id))

theorem filterRows_equal {affinity : Affinity} (haffinity : affinity ≠ .text) (id : Int)
    {rows : List Row} (h : ∀ row ∈ rows, ∃ key rest, row = .integer key :: rest) :
    filterRows (some (.compare .eq (.column ⟨0, affinity⟩) (.value (.integer id)))) rows
      = .ok (rows.filter fun row => Row.key row = id) := by
  induction rows with
  | nil => rfl
  | cons row rows ih =>
    obtain ⟨⟨key, rest, rfl⟩, hrest⟩ := List.forall_mem_cons.mp h
    have hholds : holds (some (.compare .eq (.column ⟨0, affinity⟩) (.value (.integer id))))
        (.integer key :: rest) = .ok (decide (key = id)) := by
      simp only [holds, eval, affinityOf, List.getElem?_cons_zero, Option.getD_some, bind,
        Except.bind, Except.map, Relational.compareSides_integer haffinity,
        Relational.truth_ofTruth, CompareOp.accepts, Int.compare_eq_eq, Option.some.injEq,
        decide_eq_true_eq]
    rw [filterRows, hholds, ih hrest, List.filter_cons]
    rfl

section Named

variable {name key : String} {t : Table}

theorem resolve_equal_identity (name : String) (h : HoldsIdentities t)
    (hkey : foldCase key = foldCase Relational.idColumn) (id : Int) :
    ∃ affinity : Affinity, affinity ≠ .text ∧
      resolvePlain ((scopeAs name t.shape).find []) (equalTo key id)
        = .ok (.compare .eq (.column ⟨0, affinity⟩) (.value (.integer id))) := by
  obtain ⟨first, rest, hcolumns, hname, haffinity⟩ := h.column
  have hnames : ((scopeAs name t.shape).map fun v => foldCase v.name).Nodup := by
    simpa [scopeAs, Function.comp_def] using h.names
  have hfirst : (scopeAs name t.shape)[0]? = some ⟨name, first.name, first.affinity⟩ := by
    rw [scopeAs, hcolumns]
    rfl
  have hplaces := places_eq (c := ⟨none, key⟩) rfl hnames hfirst (hname.trans hkey.symm) 0
  refine ⟨first.affinity, haffinity, ?_⟩
  simp only [resolvePlain, equalTo, resolve, Scope.find, hplaces, bind, Except.bind]
  rfl

theorem resolve_equal_unknown (h : ∀ c ∈ t.shape.columns, foldCase c.name ≠ foldCase key)
    (id : Int) : resolvePlain ((scopeAs name t.shape).find []) (equalTo key id)
      = .error (.query ("no such column: " ++ key)) := by
  have hplaces : (scopeAs name t.shape).places ⟨none, key⟩ 0 = [] := by
    refine places_eq_nil (fun v hv => ?_) 0
    obtain ⟨c, hc, rfl⟩ := List.mem_map.mp hv
    exact h c hc
  simp only [resolvePlain, equalTo, resolve, Scope.find, hplaces, bind, Except.bind]
  rfl

end Named

theorem query_of_prepare {s : Server} {client sql : String} {parameters : List Value}
    {selection : Selection} (h : prepare sql parameters = .ok (.select selection)) :
    (s.query client sql parameters).1 = (select (s.view client) selection).map Server.textRows := by
  rw [Server.query, h]
  dsimp only
  cases select (s.view client) selection with
  | ok output => rfl
  | error e => cases e <;> rfl

end DualStore.Sql

namespace DualStore.Relational

open Sql

/-! ## Statements that read one table -/

/-- Statements that read one table and select the same, whatever their condition is. -/
structure ReadsTable (q : List Predicate → Query) (table : String) (items : List SelectItem) :
    Prop where
  text : ∃ selected tokens, SpellsItems selected tokens items ∧
    ∀ ps, (q ps).text = "SELECT " ++ selected ++ " FROM " ++ table ++ clauseText ps
  parameters : ∀ ps, (q ps).parameters = Predicate.allParameters ps
  unnamed : Unnamed items
  name : isTableName table = true

theorem readsTable_matching {columns : List String} {table : String} (hne : columns ≠ [])
    (hcolumns : ∀ c ∈ columns, isColumnName c = true) (htable : isTableName table = true) :
    ReadsTable (fun ps => .matching columns table ps []) table (columnItems columns) where
  text := by
    refine ⟨_, _, spellsItems_columns hne hcolumns, fun ps => ?_⟩
    have htext : (Query.matching columns table ps []).text
        = Relational.select columns table ++ clauseText ps ++ "" := rfl
    rw [htext, String.append_empty, Relational.select]
  parameters ps := rfl
  unnamed item hitem := by
    obtain ⟨column, -, rfl⟩ := List.mem_map.mp hitem
    exact ⟨keyExpr column, rfl⟩
  name := htable

theorem readsTable_counting {table : String} (htable : isTableName table = true) :
    ReadsTable (.counting table) table countItems where
  text := by
    have hwords : "SELECT count(1) FROM " = "SELECT " ++ "count(1)" ++ " FROM " := by decide
    refine ⟨_, _, spellsItems_count, fun ps => ?_⟩
    rw [← hwords]
    rfl
  parameters ps := rfl
  unnamed item hitem := by
    obtain rfl := List.mem_singleton.mp hitem
    exact ⟨_, rfl⟩
  name := htable

/-- The predicate that a field has a number. -/
def equals (key : String) (id : Int) : Predicate := .test key (.compare .eq (.integer id))

namespace ReadsTable

variable {q : List Predicate → Query} {table : String} {items : List SelectItem} {s : Server}
  {t : Table} {key : String}

/-- Such a statement is answered by the select of its parts. -/
theorem query (h : ReadsTable q table items) {ps : List Predicate}
    (hps : Predicate.AreRegular ps) (s : Server) (client : String) :
    (s.query client (q ps).text (q ps).parameters).1
      = (Sql.select (s.view client)
          (.ofTables false items ⟨table, none⟩ [] (conditionOf ps) [] [] none)).map
            Server.textRows := by
  obtain ⟨selected, tokens, hitems, htext⟩ := h.text
  rw [htext, h.parameters]
  exact query_of_prepare (prepare_select hitems h.name hps)

theorem query_all (h : ReadsTable q table items) (s : Server) (client : String) :
    (s.query client (q []).text (q []).parameters).1
      = (Sql.select (s.view client)
          (.ofTables false items ⟨table, none⟩ [] none [] [] none)).map Server.textRows := by
  have hregular : Predicate.AreRegular [] := trivial
  exact h.query hregular s client

theorem query_equals (h : ReadsTable q table items) (hkey : isIdentifier key = true) (id : Int)
    (s : Server) (client : String) :
    (s.query client (q [equals key id]).text (q [equals key id]).parameters).1
      = (Sql.select (s.view client)
          (.ofTables false items ⟨table, none⟩ [] (some (equalTo key id)) [] [] none)).map
            Server.textRows := by
  have hplain : isPlain key = true := by
    simp only [isIdentifier, Bool.and_eq_true] at hkey
    exact hkey.1.1
  have hcondition : conditionOf [equals key id] = some (equalTo key id) := by
    have hexpr : conditionOf [equals key id]
        = some (.compare .eq (keyExpr key) (.value (.integer id))) := rfl
    rw [hexpr, keyExpr_of_isIdentifier hkey, equalTo]
  have hregular : Predicate.AreRegular [equals key id] := ⟨⟨hplain, trivial⟩, trivial⟩
  rw [h.query hregular, hcondition]

/-- **A statement that asks for an identity** under the name of its column is answered as the
statement without its condition where the table has only the rows of that identity. -/
theorem query_identity (h : ReadsTable q table items) (hkey : isIdentifier key = true)
    (hname : foldCase key = foldCase idColumn) {client : String}
    (hfind : findTable (s.view client) table = .ok t) (ht : HoldsIdentities t) (id : Int) :
    (s.query client (q [equals key id]).text (q [equals key id]).parameters).1
      = (Server.query { committed := [t.onlyKey id] } client (q []).text (q []).parameters).1 := by
  obtain ⟨affinity, haffinity, hfound⟩ := resolve_equal_identity table ht hname id
  rw [h.query_equals hkey, h.query_all,
    select_kept hfind h.unnamed hfound (filterRows_equal haffinity id ht.rows)]
  rfl

/-- **A statement that asks for a name of no column** is refused, if it is answered without its
condition. -/
theorem query_unknown (h : ReadsTable q table items) (hkey : isIdentifier key = true)
    {client : String} (hfind : findTable (s.view client) table = .ok t)
    (hname : ∀ c ∈ t.shape.columns, foldCase c.name ≠ foldCase key) (id : Int) {answer : RawRows}
    (hplain : (s.query client (q []).text (q []).parameters).1 = .ok answer) :
    (s.query client (q [equals key id]).text (q [equals key id]).parameters).1
      = .error (.query ("no such column: " ++ key)) := by
  rw [h.query_all] at hplain
  cases houtput : Sql.select (s.view client)
      (.ofTables false items ⟨table, none⟩ [] none [] [] none) with
  | error e =>
    rw [houtput] at hplain
    cases hplain
  | ok output =>
    rw [h.query_equals hkey,
      select_refused hfind h.unnamed (resolve_equal_unknown hname id) houtput]
    rfl

end ReadsTable

/-! ## The number of rows -/

theorem onRows_value (d : Datum) (rows : List Row) :
    onRows (fun row => eval [] row (.value d)) rows = .ok (rows.map fun _ => d) := by
  induction rows with
  | nil => rfl
  | cons row rows ih =>
    rw [onRows, eval_value, ih]
    rfl

/-- The number of rows is the only row of a select that counts. -/
theorem select_count {db : Database} {table : String} {t : Table}
    (hfind : findTable db table = .ok t) :
    Sql.select db (.ofTables false countItems ⟨table, none⟩ [] none [] [] none)
      = .ok ⟨[""], [[.integer t.rows.length]]⟩ := by
  have hunnamed : Unnamed countItems := by
    intro item hitem
    exact ⟨_, List.mem_singleton.mp hitem⟩
  have hcount : ∀ row, eval t.rows row (.call "count" [.value (.integer 1)])
      = .ok (.integer t.rows.length) := by
    intro row
    rw [eval, onRows_value]
    · simp [aggregateValue, Datum.isNull, bind, Except.bind]
    · decide
  have hselected : selectedColumns (scopeAs table t.shape) countItems
      = .ok [⟨"", none, .call "count" [.value (.integer 1)]⟩] := rfl
  have hcalls : aggregatesOfAll [.call "count" [.value (.integer 1)]]
      = [("count", [Expr.value (.integer 1)])] := rfl
  -- Nothing groups the rows, but a call looks at all of them: they are one group.
  obtain ⟨row, hgroups⟩ : ∃ row, groupsOf ⟨scopeAs table t.shape, t.rows, 0,
      (scopeAs table t.shape).length⟩ [] [] [("count", [Expr.value (.integer 1)])] t.rows
        = .ok [(t.rows, row)] := ⟨_, rfl⟩
  have hcomputed : computeRows [.call "count" [.value (.integer 1)]] [] [(t.rows, row)]
      = .ok [([.integer t.rows.length], [])] := by
    simp only [computeRows, evalAll, hcount, bind, Except.bind]
  rw [select_table hfind hunnamed, hselected]
  simp only [resolveWhere, bind, Except.bind, produce, filterRows_none, List.map_cons, List.map_nil,
    hcalls, aggregatesOfAll, List.append_nil, groupDirections, ite_self, hgroups, hcomputed]
  rfl

/-- Counting a table gives the number of its rows. -/
theorem query_count {table : String} (htable : isTableName table = true) (s : Server)
    (client : String) {t : Table} (hfind : findTable (s.view client) table = .ok t)
    (hrows : t.rows.length < 2 ^ 63) :
    ∃ answer, (s.query client (Query.counting table []).text
        (Query.counting table []).parameters).1 = .ok answer
      ∧ readCount answer.rows = .ok t.rows.length := by
  have hquery := (readsTable_counting htable).query_all s client
  rw [select_count hfind] at hquery
  refine ⟨_, hquery, ?_⟩
  have hfits : Decimal.fitsInt64 t.rows.length = true := by
    rw [Decimal.fitsInt64_iff, Decimal.int64Min, Decimal.int64Max]
    omega
  have hread : Decimal.readInt64? (Decimal.intText t.rows.length).toList
      = some (t.rows.length : Int) := by
    rw [Decimal.intText, String.toList_ofList]
    exact Decimal.readInt64?_intChars hfits
  have hcell : (Server.textRows ⟨[""], [[.integer t.rows.length]]⟩).rows.head?.bind List.head?
      = some (some (Decimal.intText t.rows.length)) := rfl
  rw [readCount, hcell]
  simp only [hread]

end DualStore.Relational
