import DualStore.Cache
import DualStore.Document.Journal
import DualStore.Identity.Snowflake
import DualStore.Plan.Request
import DualStore.Sql.Server

/-!
# Backends

What answers the requests of sessions: a document store, a cache, a source of identities and a
server of tables, and the texts of the statements that were run.

* `Backend`: the parts;
* `Backend.answer`: the answer to a request of a client, and the backend after it;
* `Backend.perform`: a plan of a client run against a backend.
-/

namespace DualStore

/-- The parts that answer requests. The time is in milliseconds. -/
structure Backend where
  documents : JournaledStore := {}
  cache : Option Cache := none
  supply : Snowflake.Supply
  server : Sql.Server
  statements : List String := []
  now : Nat

namespace Backend

def trace (b : Backend) (sql : String) (server : Sql.Server) : Backend :=
  { b with server := server, statements := b.statements ++ [sql] }

/-- The answer to a request of a client, and the backend after it. Without a cache nothing is
found. -/
def answer (client : String) : (r : Request) → Backend → r.Answer × Backend
  | .openDocuments, b => (b.documents.openSession, b)
  | .documents call, b =>
    let done := b.documents.perform call
    (done.1, { b with documents := done.2 })
  | .cacheGet key, b =>
    match b.cache with
    | none => (.ok none, b)
    | some cache =>
      let done := cache.get b.now key
      (done.1, { b with cache := some done.2 })
  | .cachePut key value seconds, b =>
    match b.cache with
    | none => (.ok (), b)
    | some cache =>
      let done := cache.put b.now key value seconds
      (done.1, { b with cache := some done.2 })
  | .identity node, b =>
    let drawn := b.supply.draw node
    (drawn.1, { b with supply := drawn.2 })
  | .query q, b =>
    let done := b.server.query client q.text q.parameters
    (done.1, b.trace q.text done.2)
  | .change c, b =>
    let done := b.server.execute client c.text c.parameters
    (done.1, b.trace c.text done.2)
  | .begin, b => (.ok (), { b with server := b.server.begin client })
  | .commit, b =>
    let done := b.server.commit client
    (done.1, { b with server := done.2 })
  | .rollback, b =>
    let done := b.server.rollback client
    (done.1, { b with server := done.2 })

def perform {α : Type} (b : Backend) (client : String) (work : Work α) : α × Backend :=
  work.run (answer client) b

end Backend

end DualStore
