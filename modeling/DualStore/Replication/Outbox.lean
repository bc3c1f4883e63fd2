import DualStore.Document.Session

/-!
# Outboxes

Documents that wait to be written to the document store, by collection and in the order in which
they came. Flushing writes every collection; one that fails does not keep the others from being
written.

* `Outbox`, `Outbox.push`: the waiting documents, and one more entity;
* `Outbox.size`, `Outbox.isEmpty`: how many documents wait;
* `Outbox.flush`: writes all documents and counts the collections that failed.
-/

namespace DualStore

/-- Documents that wait to be written; the collections are ordered by name. -/
structure Outbox where
  pending : List (String × List Document) := []

namespace Outbox

/-- Puts a document behind those of its collection. -/
def add (o : Outbox) (collection : String) (doc : Document) : Outbox :=
  ⟨Keyed.putSorted collection ((Keyed.get? collection o.pending).getD [] ++ [doc]) o.pending⟩

def push (o : Outbox) (m : Model.EntityMeta) (id : Int) (entity : Json) : Except Failure Outbox :=
  do
  let doc ← Document.ofEntity m id entity
  .ok (o.add m.table doc)

/-- Puts the documents of entities into the outbox up to the first that has none. -/
def pushAll (o : Outbox) (t : Model.EntityType) (m : Model.EntityMeta) :
    List Json → Except Failure Unit × Outbox
  | [] => (.ok (), o)
  | entity :: rest =>
    match o.push m (t.identityOf entity) entity with
    | .error e => (.error e, o)
    | .ok o => o.pushAll t m rest

def size (o : Outbox) : Nat := o.pending.foldl (fun n entry => n + entry.2.length) 0

def isEmpty (o : Outbox) : Bool := o.pending.isEmpty

/-- Writes collections and counts those that failed. -/
def writeAll : List (String × List Document) → Work Nat
  | [] => pure 0
  | (collection, docs) :: rest => do
    let result ← (Document.saveDocuments collection docs).run
    let failed ← writeAll rest
    pure (match result with
      | .ok _ => failed
      | .error _ => failed + 1)

/-- Writes all documents and counts the collections that failed; without a session with the store
all of them fail. -/
def flush (o : Outbox) : Work Nat :=
  if o.isEmpty then pure 0
  else do
    match ← askDocuments.run with
    | .ok _ => writeAll o.pending
    | .error _ => pure o.pending.length

end Outbox

end DualStore
