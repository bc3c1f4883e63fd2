/-!
# Answers of a database

* `RawRow`, `RawRows`: rows as texts;
* `Outcome`: what a statement that changes rows reports.
-/

namespace DualStore.Relational

/-- A row as texts; a null has none. -/
abbrev RawRow := List (Option String)

structure RawRows where
  columns : List String
  rows : List RawRow
  deriving DecidableEq, Repr

/-- How many rows a statement touched, and the key of the row that it inserted. -/
structure Outcome where
  touched : Nat
  key : Option Int
  deriving DecidableEq, Repr

end DualStore.Relational
