import DualStore.Sql.Datum
import DualStore.Sql.Error

/-!
# Tables

* `ColumnDef`, `TableDef`: the shape of a table, whose first column is its integer key;
* `Table`, `Database`: rows in the order of their keys, and the tables of a database.
-/

namespace DualStore.Sql

structure ColumnDef where
  name : String
  affinity : Affinity
  deriving DecidableEq, Repr

/-- The shape of a table. The first column is the integer key; the keys of a table that counts on
never come back after their rows are gone, and a table that discards takes no rows at all. -/
structure TableDef where
  name : String
  columns : List ColumnDef
  countsOn : Bool := false
  discards : Bool := false
  deriving DecidableEq, Repr

/-- A row: one value for each column. -/
abbrev Row := List Datum

def Row.key (row : Row) : Int :=
  match row with
  | .integer n :: _ => n
  | _ => 0

/-- A table: its rows in the order of their keys, and the greatest key ever given to a row. -/
structure Table where
  shape : TableDef
  rows : List Row := []
  greatest : Int := 0

abbrev Database := List Table

def Table.hasKey (t : Table) (key : Int) : Bool := t.rows.any fun row => Row.key row = key

/-- Puts a row into its place. -/
def insertRow (row : Row) : List Row → List Row
  | [] => [row]
  | other :: rest =>
    if Row.key row < Row.key other then row :: other :: rest else other :: insertRow row rest

def Table.lastKey? (t : Table) : Option Int := t.rows.getLast?.map Row.key

/-- The key of a row that comes without one. -/
def Table.freshKey (t : Table) : Int :=
  let next := (t.lastKey?.map (· + 1)).getD 1
  if t.shape.countsOn then max next (t.greatest + 1) else next

end DualStore.Sql
