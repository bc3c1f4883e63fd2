import DualStore.Criteria.Page

/-!
# Dialects

How databases differ in the text that restricts a select to a page. One dialect can do it; the
others are known by name and refuse.

* `Dialect`, `Dialect.parse`: the dialects and their names;
* `Dialect.count`, `Dialect.limit`: a select that counts the rows of a select, and one restricted to
  a page.
-/

namespace DualStore.Relational

inductive Dialect where
  | mysql
  | oracle
  | db2
  | hsql
  | sqlServer
  | sqlServer2005
  | sybase
  | postgres
  | derby
  deriving DecidableEq, Repr

inductive DialectError where
  | unsupported (dialect task : String)
  | unknown (name : String)
  deriving DecidableEq, Repr

def DialectError.message : DialectError → String
  | .unsupported dialect task => "dialect " ++ dialect ++ " does not support " ++ task
  | .unknown name => "unknown dialect: " ++ name

namespace Dialect

def name : Dialect → String
  | mysql => "mysql"
  | oracle => "oracle"
  | db2 => "db2"
  | hsql => "hsql"
  | sqlServer => "sqlserver"
  | sqlServer2005 => "sqlserver2005"
  | sybase => "sybase"
  | postgres => "postgres"
  | derby => "derby"

/-- All names, other names included. -/
def names : List (String × Dialect) :=
  [("mysql", mysql), ("mariadb", mysql), ("oracle", oracle), ("db2", db2), ("hsql", hsql),
    ("hsqldb", hsql), ("sqlserver", sqlServer), ("mssql", sqlServer),
    ("sqlserver2005", sqlServer2005), ("sybase", sybase), ("postgres", postgres),
    ("postgresql", postgres), ("pg", postgres), ("derby", derby)]

/-- The dialect of a name, whatever the case of its letters; the names are of ASCII letters, and no
other letter has one of those in them as its small letter. -/
def parse (s : String) : Except DialectError Dialect :=
  match names.lookup (String.ofList (s.toList.map Char.toLower)) with
  | some dialect => .ok dialect
  | none => .error (.unknown s)

/-- Whether a dialect can restrict a select to a page. -/
def supportsPages (d : Dialect) : Bool := d = mysql

def countText (sql : String) : String := "SELECT count(1) FROM (" ++ sql ++ ") AS probe"

def limitText (sql : String) (page : Page) : String :=
  sql ++ " LIMIT " ++ Decimal.intText page.skip ++ "," ++ Decimal.intText page.size

def count (d : Dialect) (sql : String) : Except DialectError String :=
  if d.supportsPages then .ok (countText sql) else .error (.unsupported d.name "count_sql")

def limit (d : Dialect) (sql : String) (page : Page) : Except DialectError String :=
  if d.supportsPages then .ok (limitText sql page) else .error (.unsupported d.name "limit_sql")

end Dialect

end DualStore.Relational
