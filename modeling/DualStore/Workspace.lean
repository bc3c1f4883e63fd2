import DualStore.Backend
import DualStore.Config.Basic
import DualStore.Relational.UnitOfWork

/-!
# Workspaces

Sessions by name over one backend: sessions with the document store, and units of work on the
database. A session that is asked for by a name that is not open is opened as the sources say.

* `Workspace`: the backend, what its sources say, and the open sessions;
* `openDocuments`, `withDocuments`, `closeDocuments`: sessions with the document store;
* `openUnit`, `withUnit`, `closeUnit`, `dropUnit`: units of work;
* `push`, `flush`: an outbox outside any session.
-/

namespace DualStore

open Relational (Settings Options UnitOfWork)

/-- Sessions by name over one backend. A unit of work can replicate if the document source has the
name of its own source. -/
structure Workspace where
  backend : Backend
  settings : Settings := {}
  sourceName : String := masterName
  targetName : Option String := none
  documentNode : Int := 0
  documentSessions : List (String × DocumentSession) := []
  units : List (String × UnitOfWork) := []
  outbox : Outbox := {}

namespace Workspace

def perform {α : Type} (w : Workspace) (name : String) (work : Work α) : α × Workspace :=
  let done := w.backend.perform name work
  (done.1, { w with backend := done.2 })

/-! ## Document sessions -/

/-- Opens a session with the document store; one of the same name is replaced. -/
def openDocuments (w : Workspace) (name : String) (node : Option Int) :
    Except Failure DocumentSession × Workspace :=
  match w.perform name
    (DocumentSession.start (node.getD w.documentNode) w.backend.cache.isSome).run with
  | (.ok s, w) => (.ok s, { w with documentSessions := Keyed.put name s w.documentSessions })
  | (.error e, w) => (.error e, w)

/-- Runs a call of a session with the document store, which is opened if it is not open. -/
def withDocuments {α : Type} (w : Workspace) (name : String)
    (call : DocumentSession → Work (α × DocumentSession)) : Except Failure α × Workspace :=
  let opened : Except Failure DocumentSession × Workspace :=
    match Keyed.get? name w.documentSessions with
    | some s => (.ok s, w)
    | none => w.openDocuments name none
  match opened with
  | (.error e, w) => (.error e, w)
  | (.ok s, w) =>
    match w.perform name (call s) with
    | ((a, s), w) => (.ok a, { w with documentSessions := Keyed.put name s w.documentSessions })

def closeDocuments (w : Workspace) (name : String) : Option Workspace :=
  if Keyed.has name w.documentSessions then
    some { w with documentSessions := Keyed.erase name w.documentSessions }
  else none

/-! ## Units of work -/

def forgetUnit (w : Workspace) (name : String) : Workspace :=
  { w with units := Keyed.erase name w.units }

/-- Ends a unit of work without its changes; none if it is not open. -/
def dropUnit (w : Workspace) (name : String) : Option Workspace :=
  (Keyed.get? name w.units).map fun u => ((w.perform name u.abandon).2).forgetUnit name

/-- Opens a unit of work on a source; one of the same name is ended without its changes. -/
def openUnit (w : Workspace) (name source : String) (options : Options) :
    Except Failure UnitOfWork × Workspace :=
  if source = w.sourceName then
    let w := (w.dropUnit name).getD w
    match w.perform name (UnitOfWork.start w.settings (w.targetName = some source) options).run with
    | (.ok u, w) => (.ok u, { w with units := Keyed.put name u w.units })
    | (.error e, w) => (.error e, w)
  else (.error (.sourceNotFound source), w)

def withUnit {α : Type} (w : Workspace) (name : String)
    (call : UnitOfWork → Work (α × UnitOfWork)) : Except Failure α × Workspace :=
  let opened : Except Failure UnitOfWork × Workspace :=
    match Keyed.get? name w.units with
    | some u => (.ok u, w)
    | none => w.openUnit name masterName {}
  match opened with
  | (.error e, w) => (.error e, w)
  | (.ok u, w) =>
    match w.perform name (call u) with
    | ((a, u), w) => (.ok a, { w with units := Keyed.put name u w.units })

def closeUnit (w : Workspace) (name : String) : Option (Except Failure Unit × Workspace) :=
  (Keyed.get? name w.units).map fun u =>
    let done := w.perform name u.close
    (done.1, done.2.forgetUnit name)

/-! ## Outside any session -/

def push (w : Workspace) (t : Model.EntityType) (m : Model.EntityMeta) (entity : Json) :
    Except Failure Unit × Workspace :=
  match w.outbox.push m (t.identityOf entity) entity with
  | .ok outbox => (.ok (), { w with outbox := outbox })
  | .error e => (.error e, w)

/-- Flushes the outbox, which is empty afterwards, and counts the collections that failed. -/
def flush (w : Workspace) : Nat × Workspace :=
  let done := w.perform "" w.outbox.flush
  (done.1, { done.2 with outbox := {} })

/-- Makes the calls of some names fail from now on. -/
def inject (w : Workspace) (names : List String) : Workspace :=
  let documents := { w.backend.documents with failing := names }
  { w with backend := { w.backend with documents := documents } }

/-- The documents of a collection, read past the journal. -/
def documents (w : Workspace) (collection : String) : Except Failure (List Json) :=
  (w.backend.documents.store.aggregate collection []).mapError .document

def cacheGet (w : Workspace) (key : String) : Except Failure (Option Json) × Workspace :=
  match w.backend.cache with
  | none => (.error .noCache, w)
  | some _ => w.perform "" (askCache key).run

def cachePut (w : Workspace) (key : String) (value : Json) (seconds : Int) :
    Except Failure Unit × Workspace :=
  match w.backend.cache with
  | none => (.error .noCache, w)
  | some _ => w.perform "" (tellCache key value seconds).run

/-- Puts rows into a table of the database, and counts them. -/
def seed (w : Workspace) (table : String) (columns : List String) (rows : List (List Value)) :
    Except Failure Nat × Workspace :=
  let done := w.backend.server.seed (Relational.insert table columns) rows
  (done.1.mapError .database, { w with backend := { w.backend with server := done.2 } })

def dump (w : Workspace) (table : String) : Except Failure Relational.RawRows :=
  (w.backend.server.dump table).mapError .database

end Workspace

end DualStore
