import DualStore.Relational.Dialect
import DualStore.Relational.Where

/-!
# Statements

A statement is data: the table, the columns, the predicates and the values that it needs. From it
come its text, in which no value stands, and its parameters in the order of the question marks of
the text. Words of clauses are written in capitals, operators in small letters.

* `select`, `insert`, `update`, `delete`, `groupBy`, `orderBy`, `tables`: texts of statements and of
  clauses;
* `Query`, `Query.text`, `Query.parameters`: statements that read rows;
* `Change`, `Change.text`, `Change.parameters`: statements that change rows;
* `Change.ofCriteria`: the update that a criteria describes.
-/

namespace DualStore.Relational

/-- The column of the identity in every table. -/
def idColumn : String := "id"

/-! ## Clauses -/

/-- The clause that groups rows; nothing without groups. -/
def groupBy (groups : List String) : String :=
  if groups = [] then "" else " GROUP BY " ++ Text.joinWith ", " groups

/-- One key of an order; whatever is not descending is ascending. -/
def orderText (o : Directive) : String := o.key ++ (if o.logic = .desc then " desc" else " asc")

def orderBy (orders : List Directive) : String :=
  if orders = [] then "" else " ORDER BY " ++ Text.joinWith ", " (orders.map orderText)

/-- The words of a join; none for a marker that joins nothing. -/
def joinWords? : Logic → Option String
  | .left => some "LEFT JOIN"
  | .right => some "RIGHT JOIN"
  | .inner => some "INNER JOIN"
  | _ => none

def joinText (j : Join) : String :=
  match joinWords? j.kind with
  | none => ""
  | some words =>
    " " ++ words ++ " " ++ j.table ++ (if j.shortName = "" then "" else " AS " ++ j.shortName)
      ++ " ON " ++ j.condition

def tables (origin : TableRef) (joins : List Join) : String :=
  " FROM " ++ origin.table ++ (if origin.shortName = "" then "" else " " ++ origin.shortName)
    ++ Text.joinWith "" (joins.map joinText)

/-! ## Texts -/

def select (columns : List String) (table : String) : String :=
  "SELECT " ++ Text.joinWith ", " columns ++ " FROM " ++ table

def insert (table : String) (columns : List String) : String :=
  "INSERT INTO " ++ table ++ " (" ++ Text.joinWith ", " columns ++ ") VALUES ("
    ++ placeholders columns.length ++ ")"

def assignmentsText (columns : List String) : String :=
  Text.joinWith ", " (columns.map fun column => column ++ " = ?")

/-- The clause that asks for one identity. -/
def identityClause : String := " WHERE " ++ idColumn ++ " = ?"

def update (table : String) (columns : List String) : String :=
  "UPDATE " ++ table ++ " SET " ++ assignmentsText columns ++ identityClause

/-- Deletes the rows of so many identities. -/
def delete (table : String) (count : Nat) : String :=
  "DELETE FROM " ++ table ++ " WHERE " ++ idColumn ++ " in(" ++ placeholders count ++ ")"

/-! ## Statements that read -/

/-- A select whose columns, tables and groups are free. -/
structure FreeSelect where
  distinct : Bool
  columns : List String
  origin : TableRef
  joins : List Join
  filter : List Predicate
  groups : List String
  order : List Directive

inductive Query where
  /-- The row of an identity. -/
  | byId (columns : List String) (table : String) (id : Int)
  /-- The rows of a table that satisfy predicates, in an order. -/
  | matching (columns : List String) (table : String) (filter : List Predicate)
      (order : List Directive)
  /-- The number of rows of a table that satisfy predicates. -/
  | counting (table : String) (filter : List Predicate)
  /-- A free select. -/
  | free (s : FreeSelect)
  /-- The number of rows of another statement. -/
  | counted (q : Query)
  /-- A page of the rows of another statement. -/
  | paged (q : Query) (page : Page)

def Query.text : Query → String
  | .byId columns table _ => select columns table ++ identityClause
  | .matching columns table filter order =>
    select columns table ++ clauseText filter ++ orderBy order
  | .counting table filter => "SELECT count(1) FROM " ++ table ++ clauseText filter
  | .free s =>
    "SELECT " ++ (if s.distinct then "DISTINCT " else "") ++ Text.joinWith ", " s.columns
      ++ tables s.origin s.joins ++ clauseText s.filter ++ groupBy s.groups ++ orderBy s.order
  | .counted q => Dialect.countText q.text
  | .paged q page => Dialect.limitText q.text page

def Query.parameters : Query → List Value
  | .byId _ _ id => [.integer id]
  | .matching _ _ filter _ => Predicate.allParameters filter
  | .counting _ filter => Predicate.allParameters filter
  | .free s => Predicate.allParameters s.filter
  | .counted q => q.parameters
  | .paged q _ => q.parameters

/-! ## Statements that change -/

/-- A statement that changes rows. The columns that get values go with the values. -/
inductive Change where
  | insert (table : String) (values : List (String × Value))
  | update (table : String) (values : List (String × Value)) (id : Int)
  | delete (table : String) (ids : List Int)
  | updateMatching (table : String) (values : List (String × Value)) (filter : List Predicate)

def Change.text : Change → String
  | .insert table values => Relational.insert table (Keyed.keys values)
  | .update table values _ => Relational.update table (Keyed.keys values)
  | .delete table ids => Relational.delete table ids.length
  | .updateMatching table values filter =>
    "UPDATE " ++ table ++ " SET " ++ assignmentsText (Keyed.keys values) ++ clauseText filter

def Change.parameters : Change → List Value
  | .insert _ values => values.map Prod.snd
  | .update _ values id => values.map Prod.snd ++ [.integer id]
  | .delete _ ids => ids.map Value.integer
  | .updateMatching _ values filter => values.map Prod.snd ++ Predicate.allParameters filter

inductive UpdateError where
  | input (e : InputError)
  | compile (e : CompileError)

/-- The update of the rows that satisfy a criteria by its assignments. -/
def Change.ofCriteria (table : String) (c : Criteria) : Except UpdateError Change :=
  if c.assignments = [] then .error (.input .noAssignments)
  else
    match predicates? c.conditions with
    | .error e => .error (.compile e)
    | .ok filter => .ok (.updateMatching table c.assignments filter)

example : (Query.paged (.byId ["id"] "t" 7) (.byNumber 2 10)).text
    = "SELECT id FROM t WHERE id = ? LIMIT 10,10" := by decide +kernel

end DualStore.Relational
