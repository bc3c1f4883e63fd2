import DualStore.Sql.Command
import DualStore.Sql.Eval

/-!
# Selects

A select puts the rows of its tables together, keeps those of which the condition is true, makes
groups if it aggregates, computes the selected columns, drops repetitions if asked to, orders, and
cuts out the window.

The order of rows that nothing orders is the order in which they are come upon: by key in a table,
and in a join by the rows that are gone through first.

* `Relation`: columns in sight and rows;
* `Relation.join`: a relation joined with a table;
* `select`: the result of a select.
-/

namespace DualStore.Sql

/-- Columns in sight and the rows that have their values. The rows are ordered by the key of one of
the tables: the key is the column at `keyPlace`, and the columns of the table end before
`keyEnd`. -/
structure Relation where
  scope : Scope
  rows : List Row
  keyPlace : Nat
  keyEnd : Nat

structure Output where
  columns : List String
  rows : List Row

def findTable (db : Database) (name : String) : Except SqlError Table :=
  match db.find? fun t => foldCase t.shape.name = foldCase name with
  | some t => .ok t
  | none => .error (.query ("no such table: " ++ name))

def relationOf (db : Database) (t : NamedTable) : Except SqlError Relation := do
  let table ← findTable db t.table
  let name := t.shortName.getD t.table
  let scope : Scope := table.shape.columns.map fun c => ⟨name, c.name, c.affinity⟩
  .ok ⟨scope, table.rows, 0, scope.length⟩

def orderOfLists : List Datum → List Datum → Ordering
  | a :: as, b :: bs => (a.order b).then (orderOfLists as bs)
  | _, _ => .eq

/-! ## Joins -/

/-- A joined table with its condition looked up. -/
structure JoinStep where
  kind : JoinKind
  condition : Expr Place
  right : Relation

/-- The columns in sight of joined tables, and the joins with their conditions looked up; a
condition sees the tables up to its own. -/
def joinSteps (db : Database) (scope : Scope) :
    List JoinedTable → Except SqlError (Scope × List JoinStep)
  | [] => .ok (scope, [])
  | j :: rest => do
    let right ← relationOf db j.table
    let scope := scope ++ right.scope
    let condition ← resolvePlain (scope.find []) j.condition
    let (scope, steps) ← joinSteps db scope rest
    .ok (scope, ⟨j.kind, condition, right⟩ :: steps)

/-- Whether an expression is null, or not true, if all columns at some places are null, as far as it
is plain to see. -/
def needsValue (inSight : Nat → Bool) : Expr Place → Bool
  | .column place => inSight place.index
  | .compare _ a b => needsValue inSight a || needsValue inSight b
  | .between _ a low high =>
    needsValue inSight a || (needsValue inSight low && needsValue inSight high)
  | .isIn _ a _ => needsValue inSight a
  | .not a => needsValue inSight a
  | .and a b => needsValue inSight a && needsValue inSight b
  | .or a b => needsValue inSight a && needsValue inSight b
  | _ => false

/-- Whether a condition cannot be true if all columns at some places are null, as far as it is plain
to see. -/
def refusesNulls (inSight : Nat → Bool) : Expr Place → Bool
  | .and a b => refusesNulls inSight a || refusesNulls inSight b
  | .isNull true a => needsValue inSight a
  | e => needsValue inSight e

/-- A join whose unpartnered rows the condition of the statement refuses keeps none of them. -/
def JoinStep.simplified (condition : Option (Expr Place)) (width : Nat) (step : JoinStep) :
    JoinStep :=
  let isRight (i : Nat) : Bool := width ≤ i && i < width + step.right.scope.length
  let isLeft (i : Nat) : Bool := i < width
  match step.kind with
  | .inner => step
  | .left => if condition.any (refusesNulls isRight) then { step with kind := .inner } else step
  | .right => if condition.any (refusesNulls isLeft) then { step with kind := .inner } else step

/-- The rows on the right that go with a row on the left. -/
def partners (condition : Expr Place) (left : Row) (right : List Row) :
    Except SqlError (List Row) :=
  filterRows (some condition) (right.map (left ++ ·))

def nulls (n : Nat) : Row := List.replicate n .null

/-- Every row on the left with its partners on the right; with `keep`, one without partners stands
alone beside nulls. -/
def joinLeft (keep : Bool) (condition : Expr Place) (width : Nat) (right : List Row) :
    List Row → Except SqlError (List Row)
  | [] => .ok []
  | left :: rest => do
    let found ← partners condition left right
    let others ← joinLeft keep condition width right rest
    .ok ((if found.isEmpty && keep then [left ++ nulls width] else found) ++ others)

/-- The rows on the right that have no partner on the left, beside nulls. -/
def unpartnered (condition : Expr Place) (width : Nat) (left : List Row) :
    List Row → Except SqlError (List Row)
  | [] => .ok []
  | right :: rest => do
    let found ← filterRows (some condition) (left.map (· ++ right))
    let others ← unpartnered condition width left rest
    .ok (if found.isEmpty then (nulls width ++ right) :: others else others)

/-- Every row on the right with its partners on the left. -/
def joinByRight (condition : Expr Place) (left : List Row) : List Row → Except SqlError (List Row)
  | [] => .ok []
  | right :: rest => do
    let found ← filterRows (some condition) (left.map (· ++ right))
    let others ← joinByRight condition left rest
    .ok (found ++ others)

/-- Whether a condition compares the key of a table on the left with a column on the right that is
no key, so that every row on the right finds its partner by the key. -/
def findsByKey (width : Nat) : Expr Place → Bool
  | .compare .eq (.column a) (.column b) =>
    (a.index = 0 && width < b.index) || (b.index = 0 && width < a.index)
  | _ => false

/-- Whether a column on the right that is no key is compared with one on the left in such a way that
an index on the right column finds the partners. -/
def isIndexable (width : Nat) (left right : Place) : Bool :=
  left.index < width && width < right.index && !(right.affinity = .text && left.affinity = .integer)

/-- Whether the partners on the right are found by an index. -/
def findsByIndex (width : Nat) : Expr Place → Bool
  | .compare .eq (.column a) (.column b) => isIndexable width a b || isIndexable width b a
  | _ => false

/-- Rows in the order of an index of the columns at some places. -/
def indexed (places : List Nat) (rows : List Row) : List Row :=
  let key (row : Row) : List Datum := places.map fun i => (row[i]?).getD .null
  stableSort (fun a b => orderOfLists (key a) (key b) = .lt) rows

/-- The places on the right that a statement uses, the key apart, in order. -/
def usedOnRight (used : List Nat) (width : Nat) (right : Relation) : List Nat :=
  (List.range right.scope.length).filter fun i => i ≠ 0 && used.contains (width + i)

/-- The rows on the right in the order in which partners are looked for. -/
def searched (used : List Nat) (width : Nat) (step : JoinStep) : List Row :=
  if findsByIndex width step.condition then
    indexed (usedOnRight used width step.right) step.right.rows
  else step.right.rows

/-- A relation joined with a table. The rows of the relation come first, each with its partners; if
they are the rows of a table and are found by key, the rows on the right come first. -/
def Relation.join (used : List Nat) (isTable : Bool) (left : Relation) (step : JoinStep) :
    Except SqlError Relation := do
  let width := left.scope.length
  let scope := left.scope ++ step.right.scope
  let side := step.right.scope.length
  match step.kind with
  | .inner =>
    if isTable && findsByKey width step.condition then
      let rows ← joinByRight step.condition left.rows step.right.rows
      .ok ⟨scope, rows, width, width + side⟩
    else
      let rows ← joinLeft false step.condition side (searched used width step) left.rows
      .ok { left with scope := scope, rows := rows }
  | .left =>
    let rows ← joinLeft true step.condition side (searched used width step) left.rows
    .ok { left with scope := scope, rows := rows }
  | .right =>
    let rows ← joinLeft false step.condition side step.right.rows left.rows
    let others ← unpartnered step.condition width left.rows step.right.rows
    .ok ⟨scope, rows ++ others, 0, 0⟩

/-- A relation joined with tables, one after the other; `isTable` says that it is a table, and the
condition is that of the statement. -/
def joinAll (used : List Nat) (condition : Option (Expr Place)) (isTable : Bool) (left : Relation) :
    List JoinStep → Except SqlError Relation
  | [] => .ok left
  | step :: rest => do
    let joined ← left.join used isTable (step.simplified condition left.scope.length)
    joinAll used condition false joined rest

/-! ## Selected columns -/

/-- A selected column: its name in the result and what it stands for; `shortName` is its other
name. -/
structure Selected where
  name : String
  shortName : Option String
  expr : Expr Place

def everyColumn : Nat → Scope → List Selected
  | _, [] => []
  | i, v :: rest => ⟨v.name, none, .column ⟨i, v.affinity⟩⟩ :: everyColumn (i + 1) rest

/-- The name of a selected column that has no other name: a column keeps its own. -/
def ownName (scope : Scope) : Expr Place → String
  | .column place => ((scope[place.index]?).map Visible.name).getD ""
  | _ => ""

def selectedColumns (scope : Scope) : List SelectItem → Except SqlError (List Selected)
  | [] => .ok []
  | .all :: rest => do
    let rest ← selectedColumns scope rest
    .ok (everyColumn 0 scope ++ rest)
  | .expr e shortName :: rest => do
    let e ← resolve (scope.find []) e
    let rest ← selectedColumns scope rest
    .ok (⟨shortName.getD (ownName scope e), shortName, e⟩ :: rest)

def aliasesOf (selected : List Selected) : Aliases :=
  selected.filterMap fun s => s.shortName.map fun name => (name, s.expr)

/-- The selected column at a place counted from one. -/
def selectedAt (selected : List Selected) (n : Int) : Except SqlError (Expr Place) :=
  match if 0 < n then selected[n.toNat - 1]? else none with
  | some s => .ok s.expr
  | none => .error (.query "term out of range")

def groupKeys (scope : Scope) (selected : List Selected) :
    List (Expr ColumnName) → Except SqlError (List (Expr Place))
  | [] => .ok []
  | e :: rest => do
    let e ← match e with
      | .value (.integer n) => selectedAt selected n
      | _ => resolvePlain (scope.find (aliasesOf selected)) e
    let rest ← groupKeys scope selected rest
    .ok (e :: rest)

/-- A key of an order: another name of a selected column goes before a column of that name. -/
def orderExpr (scope : Scope) (selected : List Selected) (e : Expr ColumnName) :
    Except SqlError (Expr Place) :=
  match e with
  | .value (.integer n) => selectedAt selected n
  | .column ⟨none, name⟩ =>
    match (aliasesOf selected).find? name with
    | some e => .ok e
    | none => resolve (scope.find (aliasesOf selected)) e
  | _ => resolve (scope.find (aliasesOf selected)) e

def orderKeys (scope : Scope) (selected : List Selected) :
    List OrderKey → Except SqlError (List (Expr Place × Bool))
  | [] => .ok []
  | k :: rest => do
    let e ← orderExpr scope selected k.expr
    let rest ← orderKeys scope selected rest
    .ok ((e, k.descending) :: rest)

/-! ## Groups -/

/-- Rows with their keys, in runs of equal keys. -/
def runs : List (List Datum × Row) → List (List Row)
  | [] => []
  | [(_, row)] => [[row]]
  | (k, row) :: (k', row') :: rest =>
    match runs ((k', row') :: rest) with
    | [] => [[row]]
    | run :: others =>
      if orderOfLists k k' = .eq then (row :: run) :: others else [row] :: run :: others

def withKeys (keys : List (Expr Place)) : List Row → Except SqlError (List (List Datum × Row))
  | [] => .ok []
  | row :: rest => do
    let key ← evalAll [] row keys
    let others ← withKeys keys rest
    .ok ((key, row) :: others)

/-- The row that gives a group the values of columns that are not aggregated, when the least or the
greatest value of an expression is asked for: the row that has it. -/
def extremeRow (want : Ordering) (e : Expr Place) (best : Datum) (chosen : Row) :
    List Row → Except SqlError Row
  | [] => .ok chosen
  | row :: rest => do
    let d ← eval [] row e
    if best.isNull then extremeRow want e d row rest
    else if !d.isNull && d.order best = want then extremeRow want e d row rest
    else extremeRow want e best chosen rest

/-- The row that gives a group the values of columns that are not aggregated. -/
def representative (calls : List (String × List (Expr Place))) (isGrouped : Bool)
    (rows : List Row) : Except SqlError Row :=
  match (calls.filter fun c => c.1 = "min" || c.1 = "max").getLast? with
  | some ("min", e :: _) => extremeRow .lt e .null [] rows
  | some ("max", e :: _) => extremeRow .gt e .null [] rows
  | _ => .ok ((if isGrouped then rows.head? else rows.getLast?).getD [])

/-- A group of rows, and the row that stands for it. -/
abbrev Group := List Row × Row

def withRepresentatives (calls : List (String × List (Expr Place))) (isGrouped : Bool) :
    List (List Row) → Except SqlError (List Group)
  | [] => .ok []
  | rows :: rest => do
    let row ← representative calls isGrouped rows
    let others ← withRepresentatives calls isGrouped rest
    .ok ((rows, row) :: others)

/-- The order of lists of keys, each ascending or descending. -/
def orderByKeys : List Bool → List Datum → List Datum → Ordering
  | descending :: rest, a :: as, b :: bs =>
    (if descending then (a.order b).swap else a.order b).then (orderByKeys rest as bs)
  | _, _, _ => .eq

/-- The directions of the keys of groups: those of the order, if it has as many keys, else
ascending. -/
def groupDirections (keys : List (Expr Place)) (order : List (Expr Place × Bool)) : List Bool :=
  if order.length = keys.length then order.map Prod.snd else keys.map fun _ => false

/-- Whether the rows of a relation already come group by group: the key by which they are ordered is
among the keys of the groups, and the others are columns of the same table. -/
def Relation.isGrouped (r : Relation) (keys : List (Expr Place)) : Bool :=
  let places := keys.map fun
    | .column place => some place.index
    | _ => none
  places.contains (some r.keyPlace)
    && places.all fun place => place.any fun i => r.keyPlace ≤ i && i < r.keyEnd

/-- The groups that a select computes its columns on: of a select that aggregates the groups of
equal keys in the order of the keys, or all rows; else every row for itself. -/
def groupsOf (r : Relation) (keys : List (Expr Place)) (directions : List Bool)
    (calls : List (String × List (Expr Place))) (rows : List Row) : Except SqlError (List Group) :=
  if keys.isEmpty && calls.isEmpty then .ok (rows.map fun row => ([], row))
  else if keys.isEmpty then withRepresentatives calls false [rows]
  else do
    let keyed ← withKeys keys rows
    let keyed :=
      if r.isGrouped keys then keyed
      else stableSort (fun a b => orderByKeys directions a.1 b.1 = .lt) keyed
    withRepresentatives calls true (runs keyed)

/-! ## Results -/

/-- The selected values and the order keys of groups. -/
def computeRows (selected : List (Expr Place)) (keys : List (Expr Place)) :
    List Group → Except SqlError (List (Row × List Datum))
  | [] => .ok []
  | (rows, row) :: rest => do
    let values ← evalAll rows row selected
    let order ← evalAll rows row keys
    let others ← computeRows selected keys rest
    .ok ((values, order) :: others)

def sameRow (a b : Row) : Bool := a.length = b.length && orderOfLists a b = .eq

/-- The rows of which none before has the same values. -/
def dropRepeated (seen : List Row) : List (Row × List Datum) → List (Row × List Datum)
  | [] => []
  | (row, keys) :: rest =>
    if seen.any (sameRow row) then dropRepeated seen rest
    else (row, keys) :: dropRepeated (row :: seen) rest

/-- The rows of a window; a negative number of rows to take means all, to pass over means none. -/
def window (w : Option (Int × Int)) (rows : List Row) : List Row :=
  match w with
  | none => rows
  | some (skip, take) =>
    let rest := rows.drop skip.toNat
    if take < 0 then rest else rest.take take.toNat

/-- The parts of a select with their names looked up. -/
structure Resolved where
  selected : List Selected
  condition : Option (Expr Place)
  keys : List (Expr Place)
  order : List (Expr Place × Bool)

def Resolved.ofParts (scope : Scope) (items : List SelectItem)
    (condition : Option (Expr ColumnName)) (groups : List (Expr ColumnName))
    (order : List OrderKey) : Except SqlError Resolved := do
  let selected ← selectedColumns scope items
  let condition ← match condition with
    | none => .ok none
    | some e => (resolvePlain (scope.find (aliasesOf selected)) e).map some
  let keys ← groupKeys scope selected groups
  let order ← orderKeys scope selected order
  .ok ⟨selected, condition, keys, order⟩

def Resolved.places (s : Resolved) : List Nat :=
  placesOfAll (s.selected.map Selected.expr ++ s.condition.toList ++ s.keys ++ s.order.map Prod.fst)

/-- The columns of a relation computed for each row, or aggregated. -/
def produce (r : Relation) (distinct : Bool) (s : Resolved) (w : Option (Int × Int)) :
    Except SqlError Output := do
  let exprs := s.selected.map Selected.expr
  let order := s.order.map Prod.fst
  let calls := aggregatesOfAll exprs ++ aggregatesOfAll order
  let rows ← filterRows s.condition r.rows
  let groups ← groupsOf r s.keys (groupDirections s.keys s.order) calls rows
  let computed ← computeRows exprs order groups
  let computed := if distinct then dropRepeated [] computed else computed
  let computed := stableSort (fun a b => orderByKeys (s.order.map Prod.snd) a.2 b.2 = .lt) computed
  .ok ⟨s.selected.map Selected.name, window w (computed.map Prod.fst)⟩

def select (db : Database) : Selection → Except SqlError Output
  | .ofTables distinct items first joins condition groups order w => do
    let left ← relationOf db first
    let (scope, steps) ← joinSteps db left.scope joins
    let s ← Resolved.ofParts scope items condition groups order
    let used := s.places ++ placesOfAll (steps.map JoinStep.condition)
    let relation ← joinAll used s.condition true left steps
    produce relation distinct s w
  | .ofSelection items inner => do
    let output ← select db inner
    let scope : Scope := output.columns.map fun name => ⟨"", name, .none⟩
    let s ← Resolved.ofParts scope items none [] []
    produce ⟨scope, output.rows, 0, 0⟩ false s none

end DualStore.Sql
