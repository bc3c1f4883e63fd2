/-!
# Failing statements

* `SqlError`: why a database does not answer, with `SqlError.message`.
-/

namespace DualStore.Sql

/-- Why a database does not answer. -/
inductive SqlError where
  | connection (reason : String)
  /-- A statement that is not understood, or that may not run now. -/
  | query (reason : String)
  /-- A statement that was under way when it failed. -/
  | interrupted (reason : String)
  | transaction (reason : String)
  deriving DecidableEq, Repr

def SqlError.message : SqlError → String
  | .connection reason => "Connection error: " ++ reason
  | .query reason => "Query error: " ++ reason
  | .interrupted reason => "Query error: " ++ reason
  | .transaction reason => "Transaction error: " ++ reason

end DualStore.Sql
