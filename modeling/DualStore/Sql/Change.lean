import DualStore.Sql.Query

/-!
# Statements that change tables

* `insert`, `update`, `delete`: the table after the statement, and how many rows were touched; a
  statement that fails changes nothing;
* `execute`: a statement on a database.
-/

namespace DualStore.Sql

structure Changed where
  table : Table
  touched : Nat
  key : Option Int

def columnIndex (shape : TableDef) (name : String) : Except SqlError Nat :=
  match shape.columns.findIdx? fun c => foldCase c.name = foldCase name with
  | some i => .ok i
  | none => .error (.query ("table has no column named " ++ name))

def columnIndices (shape : TableDef) : List String → Except SqlError (List Nat)
  | [] => .ok []
  | name :: rest => do
    let i ← columnIndex shape name
    let rest ← columnIndices shape rest
    .ok (i :: rest)

/-- The conversions of the columns of a table. -/
def convertRow : List ColumnDef → Row → Row
  | c :: cs, d :: ds => c.affinity.convert d :: convertRow cs ds
  | _, ds => ds

def asKey (d : Datum) : Except SqlError Int :=
  match d.toNumber with
  | .integer n => .ok n
  | _ => .error (.interrupted "datatype mismatch")

/-- A row of nulls with values at places; of several values for one place the first counts. -/
def placeValues (width : Nat) : List (Nat × Datum) → Row
  | [] => nulls width
  | (i, d) :: rest => (placeValues width rest).set i d

def takenKey (shape : TableDef) : SqlError :=
  .interrupted ("UNIQUE constraint failed: " ++ shape.name ++ ".id")

/-- A table with one more row. A row without a key gets a fresh one. -/
def insert (t : Table) (columns : List String) (values : List (Expr ColumnName)) :
    Except SqlError Changed := do
  let indices ← columnIndices t.shape columns
  if indices.length ≠ values.length then .error (.query "wrong number of values")
  else do
    let exprs ← resolveAll (Scope.find [] []) values
    let data ← evalAll [] [] exprs
    let row := convertRow t.shape.columns (placeValues t.shape.columns.length (indices.zip data))
    let key ← match row with
      | .null :: _ => .ok t.freshKey
      | d :: _ => asKey d
      | [] => .error (.query "no columns")
    if t.shape.discards then .ok ⟨t, 0, none⟩
    else if t.hasKey key then .error (takenKey t.shape)
    else if Decimal.int64Max < key then .error (.interrupted "database or disk is full")
    else
      let rows := insertRow (.integer key :: row.tail) t.rows
      .ok ⟨{ t with rows := rows, greatest := max t.greatest key }, 1, some key⟩

/-- The columns in sight of a statement that changes a table. -/
def scopeOf (shape : TableDef) : Scope :=
  shape.columns.map fun c => ⟨shape.name, c.name, c.affinity⟩

/-- The assignments of an update: the places of the columns and their new values. -/
def resolveSets (shape : TableDef) :
    List (String × Expr ColumnName) → Except SqlError (List (Nat × Expr Place))
  | [] => .ok []
  | (name, e) :: rest => do
    let i ← columnIndex shape name
    let e ← resolvePlain ((scopeOf shape).find []) e
    let rest ← resolveSets shape rest
    .ok ((i, e) :: rest)

/-- A row with new values at places, all computed on the row as it was. -/
def assignRow (columns : List ColumnDef) (old : Row) :
    Row → List (Nat × Expr Place) → Except SqlError Row
  | row, [] => .ok row
  | row, (i, e) :: rest => do
    let d ← eval [] old e
    let d := ((columns[i]?).map fun c => c.affinity.convert d).getD d
    assignRow columns old (row.set i d) rest

/-- Updates rows one after the other; a key must not be taken when its row comes to have it. -/
def updateRows (sets : List (Nat × Expr Place)) : Table → List Row → Except SqlError Table
  | t, [] => .ok t
  | t, old :: rest => do
    let row ← assignRow t.shape.columns old old sets
    let key ← asKey (row.head?.getD .null)
    let others := t.rows.filter fun r => Row.key r ≠ Row.key old
    if others.any fun r => Row.key r = key then .error (takenKey t.shape)
    else updateRows sets { t with rows := insertRow (.integer key :: row.tail) others } rest

def resolveCondition (shape : TableDef) (condition : Option (Expr ColumnName)) :
    Except SqlError (Option (Expr Place)) :=
  match condition with
  | none => .ok none
  | some e => (resolvePlain ((scopeOf shape).find []) e).map some

/-- A table with assignments made to the rows of which a condition is true. -/
def update (t : Table) (sets : List (String × Expr ColumnName))
    (condition : Option (Expr ColumnName)) : Except SqlError Changed := do
  let sets ← resolveSets t.shape sets
  let condition ← resolveCondition t.shape condition
  let rows ← filterRows condition t.rows
  let t ← updateRows sets t rows
  .ok ⟨t, rows.length, none⟩

/-- A table without the rows of which a condition is true. -/
def delete (t : Table) (condition : Option (Expr ColumnName)) : Except SqlError Changed := do
  let condition ← resolveCondition t.shape condition
  let rows ← filterRows condition t.rows
  let keys := rows.map Row.key
  .ok ⟨{ t with rows := t.rows.filter fun row => !keys.contains (Row.key row) }, rows.length, none⟩

def putTable (t : Table) (db : Database) : Database :=
  db.map fun other => if other.shape.name = t.shape.name then t else other

structure Executed where
  database : Database
  touched : Nat
  key : Option Int

/-- Runs a change on the table of a name. -/
def changeTable (db : Database) (name : String) (change : Table → Except SqlError Changed) :
    Except SqlError Executed := do
  let t ← findTable db name
  let changed ← change t
  .ok ⟨putTable changed.table db, changed.touched, changed.key⟩

def execute (db : Database) : Command → Except SqlError Executed
  | .select _ => .error (.query "statement returns rows")
  | .insert table columns values => changeTable db table fun t => insert t columns values
  | .update table sets condition => changeTable db table fun t => update t sets condition
  | .delete table condition => changeTable db table fun t => delete t condition

/-- The statement that a text and its parameters spell. -/
def prepare (sql : String) (parameters : List Value) : Except SqlError Command :=
  match Token.scan? sql with
  | none => .error (.query "unrecognized token")
  | some tokens =>
    match Token.bind? tokens (parameters.map Datum.ofValue) with
    | none => .error (.query "wrong number of parameters")
    | some tokens =>
      match Command.read? tokens with
      | none => .error (.query "wrong statement")
      | some command => .ok command

end DualStore.Sql
