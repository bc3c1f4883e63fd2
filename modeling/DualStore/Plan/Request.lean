import DualStore.Document.Store
import DualStore.Failure
import DualStore.Plan.Basic

/-!
# Requests

What the sessions of the library ask of the world: calls of a document store, statements of a
database, the cache, and fresh identities. Sessions are plans over these requests, so that they can
be run against any store and any database.

* `Request`, `Request.Answer`: the requests and the types of their answers;
* `Work`, `Attempt`: plans over requests, and those that may fail;
* `askStore`, `askQuery`, `askChange`, …: one request as an attempt.
-/

namespace DualStore

/-- What a session asks for. -/
inductive Request where
  /-- A session with the document store. -/
  | openDocuments
  /-- A call of the document store. -/
  | documents (call : Call)
  | cacheGet (key : String)
  | cachePut (key : String) (value : Json) (seconds : Int)
  /-- A fresh identity of a node. -/
  | identity (node : Int)
  | query (q : Relational.Query)
  | change (c : Relational.Change)
  | begin
  | commit
  | rollback

def Request.Answer : Request → Type
  | .openDocuments => Except StoreError Unit
  | .documents call => call.Answer
  | .cacheGet _ => Except CacheError (Option Json)
  | .cachePut _ _ _ => Except CacheError Unit
  | .identity _ => Int
  | .query _ => Except Sql.SqlError Relational.RawRows
  | .change _ => Except Sql.SqlError Relational.Outcome
  | .begin => Except Sql.SqlError Unit
  | .commit => Except Sql.SqlError Unit
  | .rollback => Except Sql.SqlError Unit

def requests : Interface := ⟨Request, Request.Answer⟩

/-- A plan over requests. -/
abbrev Work (α : Type) := Plan requests α

/-- A plan over requests that may fail. -/
abbrev Attempt (α : Type) := ExceptT Failure (Plan requests) α

/-- A result as an attempt that asks nothing. -/
def Attempt.ofExcept {α : Type} (r : Except Failure α) : Attempt α := ExceptT.mk (pure r)

/-- A result whose error becomes a failure. -/
def Attempt.lift {ε α : Type} (wrap : ε → Failure) (r : Except ε α) : Attempt α :=
  .ofExcept (r.mapError wrap)

/-! ## One request -/

def freshIdentity (node : Int) : Work Int := .ask (.identity node) .done

def askDocuments : Attempt Unit :=
  ExceptT.mk (.ask .openDocuments fun r => .done (Except.mapError Failure.document r))

def askStore (call : Call) : Attempt call.Result :=
  ExceptT.mk (.ask (.documents call) fun r => .done (Except.mapError Failure.document r))

def askCache (key : String) : Attempt (Option Json) :=
  ExceptT.mk (.ask (.cacheGet key) fun r => .done (Except.mapError Failure.cache r))

def tellCache (key : String) (value : Json) (seconds : Int) : Attempt Unit :=
  ExceptT.mk (.ask (.cachePut key value seconds) fun r => .done (Except.mapError Failure.cache r))

def askQuery (q : Relational.Query) : Attempt Relational.RawRows :=
  ExceptT.mk (.ask (.query q) fun r => .done (Except.mapError Failure.database r))

def askChange (c : Relational.Change) : Attempt Relational.Outcome :=
  ExceptT.mk (.ask (.change c) fun r => .done (Except.mapError Failure.database r))

def askBegin : Attempt Unit :=
  ExceptT.mk (.ask .begin fun r => .done (Except.mapError Failure.database r))

def askCommit : Attempt Unit :=
  ExceptT.mk (.ask .commit fun r => .done (Except.mapError Failure.database r))

def askRollback : Attempt Unit :=
  ExceptT.mk (.ask .rollback fun r => .done (Except.mapError Failure.database r))

end DualStore
