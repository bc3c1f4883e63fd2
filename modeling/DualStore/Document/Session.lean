import DualStore.Criteria.Target
import DualStore.Document.Compile
import DualStore.Document.Entity
import DualStore.Plan.Request

/-!
# Document sessions

A session with a document store. There is no transaction: every call stands for itself, and the
session only remembers the errors of the calls that failed.

* `saveDocuments`: documents whose identities are known are replaced one by one, the others are
  inserted together at the end;
* `throughCache`: a read whose answer is kept in the cache;
* `DocumentSession`: the choices of a session and its errors;
* `DocumentSession.save`, `delete`, `updateMatching`, `count`, `findOne`, `findList`: the calls.
-/

namespace DualStore

namespace Document

/-- The stages that count the documents of an identity. -/
def probe (id : Int) : List Json :=
  [operator "$match" (.obj [(idKey, .int id)]), operator "$count" (.str countField)]

/-- Puts a document to those that wait, in the place of an earlier one of its identity. -/
def putPending (doc : Document) : List Document → List Document
  | [] => [doc]
  | other :: rest => if other.id = doc.id then doc :: rest else other :: putPending doc rest

/-- Saves documents, given those that already wait to be inserted. -/
def saveFrom (collection : String) (pending : List Document) : List Document → Attempt Unit
  | [] => if pending.isEmpty then pure () else askStore (.insertMany collection pending)
  | doc :: rest => do
    let found ← askStore (.aggregate collection (probe doc.id))
    if 0 < countOf found then do
      askStore (.updateById collection doc)
      saveFrom collection pending rest
    else saveFrom collection (putPending doc pending) rest

/-- Saves documents: one whose identity is known replaces the document that has it, the others are
inserted together at the end, of several for one identity the last. -/
def saveDocuments (collection : String) (docs : List Document) : Attempt Unit :=
  saveFrom collection [] docs

/-! ## Entities -/

/-- An entity with an identity; one without gets a fresh one. -/
def identified (node : Int) (t : Model.EntityType) (entity : Json) : Work Json :=
  if t.identityOf entity = 0 then do
    let id ← freshIdentity node
    pure (t.withIdentity id entity)
  else pure entity

/-- The documents of entities, which get identities in order; the first entity that has no document
ends it, and those behind it stay as they are. -/
def documentsOf (node : Int) (t : Model.EntityType) (m : Model.EntityMeta) :
    List Json → Work (Except Failure (List Document) × List Json)
  | [] => pure (.ok [], [])
  | entity :: rest => do
    let entity ← identified node t entity
    match ofEntity m (t.identityOf entity) entity with
    | .error e => pure (.error e, entity :: rest)
    | .ok doc => do
      let (docs, rest) ← documentsOf node t m rest
      pure (docs.map (doc :: ·), entity :: rest)

def saveEntities (node : Int) (t : Model.EntityType) (entities : List Json) :
    Work (Except Failure Unit × List Json) :=
  if entities.isEmpty then pure (.error (.input (.noEntities "save")), entities)
  else
    match t.checked with
    | .error e => pure (.error e, entities)
    | .ok m => do
      let (docs, entities) ← documentsOf node t m entities
      match docs with
      | .error e => pure (.error e, entities)
      | .ok docs => do
        let result ← (saveDocuments m.table docs).run
        pure (result, entities)

/-- Deletes entities by their identities, and counts those that were there. -/
def deleteEntities (t : Model.EntityType) (entities : List Json) : Attempt Nat :=
  if entities.isEmpty then throw (.input (.noEntities "delete"))
  else do
    let m ← Attempt.ofExcept t.checked
    let ids := entities.map t.identityOf
    if ids.contains 0 then throw (.input (.noIdentity "delete" m.typeName))
    else askStore (.removeMany m.table [(idKey, operator "$in" (.arr (ids.map .int)))])

/-- Makes the assignments of a criteria in the documents that satisfy it, and counts them. -/
def updateMatching (c : Criteria) : Attempt Nat := do
  let m ← Attempt.ofExcept c.target
  let filter ← Attempt.lift .compile (filterOf c.conditions m.idField)
  let set ← Attempt.lift .input (assignmentsOf c m.idField)
  askStore (.updateMany m.table filter set)

/-! ## Reads -/

/-- What a call that reads leaves: its result, and the page with the totals written back. -/
structure Found (α : Type) where
  result : Except Failure α
  page : Page

def total (m : Model.EntityMeta) (c : Criteria) : Attempt Int := do
  let stages ← Attempt.lift .compile (pipelineOf c m.idField true)
  let docs ← askStore (.aggregate m.table stages)
  pure (countOf docs)

def read (m : Model.EntityMeta) (c : Criteria) : Attempt (List Json) := do
  let stages ← Attempt.lift .compile (pipelineOf c m.idField false)
  askStore (.aggregate m.table stages)

/-- A read whose answer is kept in the cache if the directive is active: an answer that is there is
taken, any other is read and put there. A read that fails leaves the cache as it is. -/
def throughCache {α : Type} (hasCache : Bool) (directive : CacheDirective)
    (ofJson? : Json → Option α) (toJson : α → Json) (read : Attempt α) : Attempt α :=
  if !directive.isActive then read
  else if !hasCache then throw .noCache
  else do
    match ← askCache directive.fullKey with
    | some hit =>
      match ofJson? hit with
      | some answer => pure answer
      | none => throw .json
    | none => do
      let answer ← read
      tellCache directive.fullKey (toJson answer) directive.expire
      pure answer

def entitiesOfJson? (layout : Model.Layout) : Json → Option (List Json)
  | .arr items => Model.readAll layout.read? items
  | _ => none

/-- The entity in a value that is null without one. -/
def entityOfJson? (layout : Model.Layout) : Json → Option (Option Json)
  | .null => some none
  | v => (layout.read? v).map some

def firstEntity (idField : String) (layout : Model.Layout) :
    List Json → Except Failure (Option Json)
  | [] => .ok none
  | doc :: _ => (toEntity idField layout doc).map some

/-- Counts the documents of a criteria, and writes the total into its page. -/
def countMatching (c : Criteria) : Work (Found Int) := do
  let result ← (do total (← Attempt.ofExcept c.target) c : Attempt Int).run
  match result with
  | .ok n => pure ⟨.ok n, c.page.applyTotal n⟩
  | .error e => pure ⟨.error e, c.page⟩

def findOne (hasCache : Bool) (t : Model.EntityType) (c : Criteria) : Work (Found (Option Json)) :=
  match (do c.checkTarget t; t.checked : Except Failure Model.EntityMeta) with
  | .error e => pure ⟨.error e, c.page⟩
  | .ok m => do
    let c := c.offset 0 1
    let result ← (throughCache hasCache c.cache (entityOfJson? t.layout) (fun e => e.getD .null) do
      let docs ← read m c
      Attempt.ofExcept (firstEntity m.idField t.layout docs)).run
    pure ⟨result, c.page⟩

/-- The page of a criteria with the totals written back. This is done only for a numbered page, and
not when the answer may come from the cache. -/
def countedPage (m : Model.EntityMeta) (c : Criteria) : Attempt Page :=
  if c.page.isSet && !c.page.isOffset && !c.cache.isActive then do
    let n ← total m c
    pure (c.page.applyTotal n)
  else pure c.page

def findList (hasCache : Bool) (t : Model.EntityType) (c : Criteria) : Work (Found (List Json)) :=
  match (do c.checkTarget t; t.checked : Except Failure Model.EntityMeta) with
  | .error e => pure ⟨.error e, c.page⟩
  | .ok m => do
    match ← (countedPage m c).run with
    | .error e => pure ⟨.error e, c.page⟩
    | .ok page => do
      let c := { c with page := page }
      let result ← (throughCache hasCache c.cache (entitiesOfJson? t.layout) .arr do
        let docs ← read m c
        Attempt.ofExcept (toEntities m.idField t.layout docs)).run
      pure ⟨result, page⟩

end Document

/-! ## Sessions -/

structure DocumentSession where
  node : Int := 0
  hasCache : Bool := false
  errors : List String := []

/-- A list of errors with the message of a failure at its end, if a result is one. -/
def Failure.recordIn {α : Type} (errors : List String) : Except Failure α → List String
  | .ok _ => errors
  | .error e => errors ++ [e.message]

namespace DocumentSession

def start (node : Int) (hasCache : Bool) : Attempt DocumentSession := do
  askDocuments
  pure { node := node, hasCache := hasCache }

def record {α : Type} (s : DocumentSession) (result : Except Failure α) : DocumentSession :=
  { s with errors := Failure.recordIn s.errors result }

/-- Runs a call and records its failure. -/
def call {α : Type} (s : DocumentSession) (attempt : Attempt α) :
    Work (Except Failure α × DocumentSession) := do
  let result ← attempt.run
  pure (result, s.record result)

def readCall {α : Type} (s : DocumentSession) (work : Work (Document.Found α)) :
    Work (Document.Found α × DocumentSession) := do
  let found ← work
  pure (found, s.record found.result)

/-- Saves entities; an update is the same. The entities come back with their identities. -/
def save (s : DocumentSession) (t : Model.EntityType) (entities : List Json) :
    Work ((Except Failure Unit × List Json) × DocumentSession) := do
  let (result, entities) ← Document.saveEntities s.node t entities
  pure ((result, entities), s.record result)

def saveDocuments (s : DocumentSession) (collection : String) (docs : List Document) :
    Work (Except Failure Unit × DocumentSession) := s.call (Document.saveDocuments collection docs)

def delete (s : DocumentSession) (t : Model.EntityType) (entities : List Json) :
    Work (Except Failure Nat × DocumentSession) := s.call (Document.deleteEntities t entities)

def updateMatching (s : DocumentSession) (c : Criteria) :
    Work (Except Failure Nat × DocumentSession) := s.call (Document.updateMatching c)

def count (s : DocumentSession) (c : Criteria) :
    Work (Document.Found Int × DocumentSession) := s.readCall (Document.countMatching c)

def findOne (s : DocumentSession) (t : Model.EntityType) (c : Criteria) :
    Work (Document.Found (Option Json) × DocumentSession) :=
  s.readCall (Document.findOne s.hasCache t c)

def findList (s : DocumentSession) (t : Model.EntityType) (c : Criteria) :
    Work (Document.Found (List Json) × DocumentSession) :=
  s.readCall (Document.findList s.hasCache t c)

end DocumentSession

end DualStore
