import DualStore.Cache
import DualStore.Config.Error
import DualStore.Document.Basic
import DualStore.Model.Entity
import DualStore.Relational.Column
import DualStore.Relational.Dialect
import DualStore.Relational.Statement
import DualStore.Sql.Error

/-!
# Failures

Everything that can make a call of the library fail, from wrong arguments to a store that does not
answer.

* `Failure`: the kinds, each with its cause;
* `Failure.message`: the text of a failure;
* `DataError`: an outcome that makes no sense.
-/

namespace DualStore

/-- A statement or a pipeline that ran with an outcome that makes no sense. -/
inductive DataError where
  | nothingInserted (table : String)
  | notADocument (value : Json)

def DataError.message : DataError → String
  | .nothingInserted table => "insert into " ++ table ++ " affected no rows"
  | .notADocument value => "pipeline returned non-document " ++ value.text

/-- Why a call fails. -/
inductive Failure where
  /-- Wrong arguments; nothing was run. -/
  | input (e : InputError)
  /-- An entity type with a faulty declaration. -/
  | declaration (e : Model.MetaError)
  /-- A condition or a value that no statement can express. -/
  | compile (e : CompileError)
  | dialect (e : Relational.DialectError)
  | database (e : Sql.SqlError)
  | data (e : DataError)
  | decode (e : Relational.DecodeError)
  /-- A value that is not an entity of its type. -/
  | json
  | document (e : StoreError)
  | cache (e : CacheError)
  | noCache
  | sourceNotFound (name : String)
  | alreadyInitialized
  | notInitialized
  | config (e : ConfigError)

def Failure.message : Failure → String
  | .input e => "invalid input: " ++ e.message
  | .declaration e => "metadata error: " ++ e.message
  | .compile e => "compile error: " ++ e.message
  | .dialect e => "dialect error: " ++ e.message
  | .database e => e.message
  | .data e => "data error: " ++ e.message
  | .decode e => "decode error: " ++ e.message
  | .json => "JSON error: invalid entity"
  | .document e => "document store error: " ++ e.message
  | .cache e => "cache error: " ++ e.message
  | .noCache => "cache manager not initialized"
  | .sourceNotFound name => "data source not found: " ++ name
  | .alreadyInitialized => "data sources already initialized"
  | .notInitialized => "data sources not initialized"
  | .config e => "config error: " ++ e.message

def Failure.ofUpdate : Relational.UpdateError → Failure
  | .input e => .input e
  | .compile e => .compile e

end DualStore
