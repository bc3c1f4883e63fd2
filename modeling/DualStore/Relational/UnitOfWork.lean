import DualStore.Criteria.Target
import DualStore.Relational.Projection
import DualStore.Replication.Outbox

/-!
# Units of work

A session with a database. It may hold one transaction for its whole life. Every call that fails is
recorded; at the end the transaction is committed if nothing is recorded and rolled back otherwise.
Entities of replicated types that were written go into an outbox, which is flushed at the end if the
changes stand.

* `Settings`, `Options`: what a source says, and what the one who opens a unit of work chooses;
* `UnitOfWork`, `UnitOfWork.start`: a unit of work;
* `save`, `update`, `delete`, `updateMatching`: calls that write;
* `count`, `findById`, `findOne`, `findList`, `findRecords`, `findRecord`: calls that read;
* `close`, `abandon`: the end.
-/

namespace DualStore.Relational

open Document (Found)

/-- What a source of a database says about the units of work on it. -/
structure Settings where
  dialect : Dialect := .mysql
  cacheSync : Bool := false
  autoId : Bool := false
  node : Int := 0
  zone : Calendar.Zone := .universal

/-- What the one who opens a unit of work chooses; what is not chosen is as the source says. -/
structure Options where
  autoTransaction : Bool := false
  cacheSync : Option Bool := none
  autoId : Option Bool := none
  node : Option Int := none

/-- A unit of work. It replicates if a document store takes the entities that it writes. -/
structure UnitOfWork where
  settings : Settings
  inTransaction : Bool := false
  autoId : Bool := false
  node : Int := 0
  replicates : Bool := false
  outbox : Outbox := {}
  errors : List String := []

namespace UnitOfWork

/-- Opens a unit of work; `hasTarget` says whether there is a document store to replicate into. -/
def start (settings : Settings) (hasTarget : Bool) (options : Options) : Attempt UnitOfWork := do
  if options.autoTransaction then askBegin else pure ()
  pure {
    settings := settings
    inTransaction := options.autoTransaction
    autoId := options.autoId.getD settings.autoId
    node := options.node.getD settings.node
    replicates := options.cacheSync.getD settings.cacheSync && hasTarget }

def record {α : Type} (u : UnitOfWork) (result : Except Failure α) : UnitOfWork :=
  { u with errors := Failure.recordIn u.errors result }

def fail (u : UnitOfWork) (e : Failure) : UnitOfWork := { u with errors := u.errors ++ [e.message] }

/-- Runs a call and records its failure. -/
def call {α : Type} (u : UnitOfWork) (attempt : Attempt α) : Work (Except Failure α × UnitOfWork) :=
  do
  let result ← attempt.run
  pure (result, u.record result)

def readCall {α : Type} (u : UnitOfWork) (work : Work (Found α)) : Work (Found α × UnitOfWork) := do
  let found ← work
  pure (found, u.record found.result)

/-! ## Writes -/

/-- The row that an entity is inserted as: the identity if it has one, and the columns of its
fields. -/
def rowOf (zone : Calendar.Zone) (t : Model.EntityType) (m : Model.EntityMeta) (entity : Json) :
    Except Failure (List (String × Value)) := do
  let body ← (bodyOf entity).mapError .compile
  let values ← (columnValues zone body (Model.Field.persisted m.fields)).mapError .compile
  let id := t.identityOf entity
  let row := if id = 0 then values else (idColumn, .integer id) :: values
  if row.isEmpty then .error (.input (.nothingToInsert m.typeName)) else .ok row

/-- Inserts an entity; it comes back with the identity of its row. -/
def insertEntity (zone : Calendar.Zone) (t : Model.EntityType) (m : Model.EntityMeta)
    (entity : Json) : Attempt Json := do
  let row ← Attempt.ofExcept (rowOf zone t m entity)
  let outcome ← askChange (.insert m.table row)
  if outcome.touched = 0 then throw (.data (.nothingInserted m.table))
  else
    match outcome.key with
    | some key =>
      pure (if t.identityOf entity = 0 ∧ 0 < key then t.withIdentity key entity else entity)
    | none => pure entity

/-- Inserts entities up to the first that fails. They come back with their identities; those behind
the failed one stay as they are. -/
def insertAll (u : UnitOfWork) (t : Model.EntityType) (m : Model.EntityMeta) :
    List Json → Work (Except Failure Unit × List Json)
  | [] => pure (.ok (), [])
  | entity :: rest => do
    let entity ←
      if u.autoId then do
        let id ← freshIdentity u.node
        pure (t.withIdentity id entity)
      else pure entity
    match ← (insertEntity u.settings.zone t m entity).run with
    | .error e => pure (.error e, entity :: rest)
    | .ok entity => do
      let (result, rest) ← insertAll u t m rest
      pure (result, entity :: rest)

/-- Inserts an entity whose identity is assigned, and behind it the others. -/
def insertAssigned (u : UnitOfWork) (t : Model.EntityType) (m : Model.EntityMeta) (entity : Json)
    (rest : List Json) : Work (Except Failure Unit × List Json) := do
  match ← (insertEntity u.settings.zone t m entity).run with
  | .error e => pure (.error e, entity :: rest)
  | .ok entity => do
    let (result, rest) ← insertAll u t m rest
    pure (result, entity :: rest)

theorem insertAll_cons (u : UnitOfWork) (t : Model.EntityType) (m : Model.EntityMeta)
    (entity : Json) (rest : List Json) :
    insertAll u t m (entity :: rest) =
      if u.autoId then
        freshIdentity u.node >>= fun id => insertAssigned u t m (t.withIdentity id entity) rest
      else insertAssigned u t m entity rest := by
  rw [insertAll]
  split <;> rfl

/-- The unit of work with written entities in its outbox, if they are to be replicated. -/
def replicate (u : UnitOfWork) (t : Model.EntityType) (m : Model.EntityMeta)
    (entities : List Json) : Except Failure Unit × UnitOfWork :=
  if u.replicates && m.replicated then
    let pushed := u.outbox.pushAll t m entities
    (pushed.1, { u with outbox := pushed.2 })
  else (.ok (), u)

/-- Inserts entities, which come back with their identities. -/
def save (u : UnitOfWork) (t : Model.EntityType) (entities : List Json) :
    Work ((Except Failure Unit × List Json) × UnitOfWork) :=
  if entities.isEmpty then
    let e : Failure := .input (.noEntities "save")
    pure ((.error e, entities), u.fail e)
  else
    match t.checked with
    | .error e => pure ((.error e, entities), u.fail e)
    | .ok m => do
      match ← insertAll u t m entities with
      | (.error e, entities) => pure ((.error e, entities), u.fail e)
      | (.ok _, entities) =>
        let (result, u) := u.replicate t m entities
        pure ((result, entities), u.record result)

/-- Updates the row of an entity; a row that is not there is no error. -/
def updateEntity (zone : Calendar.Zone) (t : Model.EntityType) (m : Model.EntityMeta)
    (entity : Json) : Attempt Unit := do
  let id := t.identityOf entity
  if id = 0 then throw (.input (.noIdentity "update" m.typeName))
  else do
    let body ← Attempt.lift .compile (bodyOf entity)
    let values ← Attempt.lift .compile (columnValues zone body (Model.Field.persisted m.fields))
    if values.isEmpty then throw (.input (.nothingToSet m.typeName))
    else do
      let _ ← askChange (.update m.table values id)
      pure ()

/-- Updates entities up to the first that fails. -/
def updateAll (zone : Calendar.Zone) (t : Model.EntityType) (m : Model.EntityMeta) :
    List Json → Attempt Unit
  | [] => pure ()
  | entity :: rest => do
    updateEntity zone t m entity
    updateAll zone t m rest

def update (u : UnitOfWork) (t : Model.EntityType) (entities : List Json) :
    Work (Except Failure Unit × UnitOfWork) := do
  let attempt : Attempt Model.EntityMeta :=
    if entities.isEmpty then throw (.input (.noEntities "update"))
    else do
      let m ← Attempt.ofExcept t.checked
      updateAll u.settings.zone t m entities
      pure m
  match ← attempt.run with
  | .error e => pure (.error e, u.fail e)
  | .ok m =>
    let (result, u) := u.replicate t m entities
    pure (result, u.record result)

/-- Deletes the rows of entities, and counts those that were there. -/
def deleteRows (t : Model.EntityType) (entities : List Json) : Attempt Nat :=
  if entities.isEmpty then throw (.input (.noEntities "delete"))
  else do
    let m ← Attempt.ofExcept t.checked
    let ids := entities.map t.identityOf
    if ids.contains 0 then throw (.input (.noIdentity "delete" m.typeName))
    else do
      let outcome ← askChange (.delete m.table ids)
      pure outcome.touched

def delete (u : UnitOfWork) (t : Model.EntityType) (entities : List Json) :
    Work (Except Failure Nat × UnitOfWork) := u.call (deleteRows t entities)

/-- Makes the assignments of a criteria in the rows that satisfy it, and counts them. -/
def updateRows (c : Criteria) : Attempt Nat := do
  let m ← Attempt.ofExcept c.target
  let change ← Attempt.lift .ofUpdate (Change.ofCriteria m.table c)
  let outcome ← askChange change
  pure outcome.touched

def updateMatching (u : UnitOfWork) (c : Criteria) : Work (Except Failure Nat × UnitOfWork) :=
  u.call (updateRows c)

/-! ## Reads -/

def askCount (q : Query) : Attempt Int := do
  let answer ← askQuery q
  Attempt.lift .decode (readCount answer.rows)

def countRows (c : Criteria) : Attempt Int := do
  let m ← Attempt.ofExcept c.target
  let filter ← Attempt.lift .compile (predicates? c.conditions)
  askCount (.counting m.table filter)

/-- Counts the rows of a criteria, and writes the total into its page. -/
def count (u : UnitOfWork) (c : Criteria) : Work (Found Int × UnitOfWork) :=
  u.readCall do
    match ← (countRows c).run with
    | .ok n => pure ⟨.ok n, c.page.applyTotal n⟩
    | .error e => pure ⟨.error e, c.page⟩

def rowById (zone : Calendar.Zone) (t : Model.EntityType) (id : Int) : Attempt (Option Json) :=
  if id = 0 then throw (.input .zeroIdentity)
  else do
    let m ← Attempt.ofExcept t.checked
    let projection ← Attempt.lift .input (Projection.ofMeta m [])
    let answer ← askQuery (.byId projection.columns m.table id)
    let entities ← Attempt.ofExcept
      (Projection.readRows zone projection.bindings t.layout answer.rows)
    pure entities.head?

/-- The entity of an identity, if its row is there. -/
def findById (u : UnitOfWork) (t : Model.EntityType) (id : Int) :
    Work (Except Failure (Option Json) × UnitOfWork) := u.call (rowById u.settings.zone t id)

/-- A statement restricted to a page, and the page with the totals written back; the rows are
counted first if the page is a numbered one. -/
def paginate (dialect : Dialect) (page : Page) (q : Query) : Attempt (Query × Page) :=
  if !page.isSet then pure (q, page)
  else if !dialect.supportsPages then throw (.dialect (.unsupported dialect.name "pagination"))
  else if page.isOffset then pure (.paged q page, page)
  else do
    let n ← askCount (.counted q)
    let page := page.applyTotal n
    pure (.paged q page, page)

/-- Runs a statement restricted to a page, and reads the answer. -/
def pagedRead {α : Type} (dialect : Dialect) (page : Page) (q : Query)
    (read : RawRows → Except Failure α) : Work (Found α) := do
  match ← (paginate dialect page q).run with
  | .error e => pure ⟨.error e, page⟩
  | .ok (q, page) => do
    let result ← (do
      let answer ← askQuery q
      Attempt.ofExcept (read answer) : Attempt α).run
    pure ⟨result, page⟩

/-- The statement that selects the entities of a criteria, and how its rows are read. -/
def selection (t : Model.EntityType) (c : Criteria) : Except Failure (Query × Projection) := do
  c.checkTarget t
  let m ← c.target
  let projection ← (Projection.ofMeta m c.fields).mapError .input
  let filter ← (predicates? c.conditions).mapError .compile
  .ok (.matching projection.columns m.table filter c.orders, projection)

def selectEntities (settings : Settings) (t : Model.EntityType) (c : Criteria) :
    Work (Found (List Json)) :=
  match selection t c with
  | .error e => pure ⟨.error e, c.page⟩
  | .ok (q, projection) =>
    pagedRead settings.dialect c.page q fun answer =>
      Projection.readRows settings.zone projection.bindings t.layout answer.rows

/-- The entities of a criteria, and the totals of its page. -/
def findList (u : UnitOfWork) (t : Model.EntityType) (c : Criteria) :
    Work (Found (List Json) × UnitOfWork) := u.readCall (selectEntities u.settings t c)

def first {α : Type} (found : Found (List α)) : Found (Option α) :=
  ⟨found.result.map List.head?, found.page⟩

def findOne (u : UnitOfWork) (t : Model.EntityType) (c : Criteria) :
    Work (Found (Option Json) × UnitOfWork) :=
  u.readCall do
    let found ← selectEntities u.settings t (c.offset 0 1)
    pure (first found)

/-- The free select that a criteria describes, and the metadata of the records that it is read
into. -/
def freeSelection (t : Model.EntityType) (c : Criteria) :
    Except Failure (Query × Model.RecordMeta) := do
  if c.fields.isEmpty then throw (.input .nothingSelected) else pure ()
  if c.origin.table = "" then throw (.input .noTable) else pure ()
  let m ← t.resolveRecord.mapError .declaration
  let filter ← (predicates? c.conditions).mapError .compile
  .ok (.free ⟨!c.distincts.isEmpty, c.fields, c.origin, c.joins, filter, c.groups, c.orders⟩, m)

/-- The records of a free select; columns that belong to no field are passed over. -/
def selectRecords (settings : Settings) (t : Model.EntityType) (c : Criteria) :
    Work (Found (List Json)) :=
  match freeSelection t c with
  | .error e => pure ⟨.error e, c.page⟩
  | .ok (q, m) =>
    pagedRead settings.dialect c.page q fun answer =>
      let matched := Projection.ofColumns m 0 answer.columns
      Projection.readRows settings.zone (matched.map Prod.snd) t.layout
        (answer.rows.map (Projection.pick (matched.map Prod.fst)))

def findRecords (u : UnitOfWork) (t : Model.EntityType) (c : Criteria) :
    Work (Found (List Json) × UnitOfWork) := u.readCall (selectRecords u.settings t c)

/-- The first record of a free select; only one is asked for, unless there is a page. -/
def findRecord (u : UnitOfWork) (t : Model.EntityType) (c : Criteria) :
    Work (Found (Option Json) × UnitOfWork) :=
  u.readCall do
    let found ← selectRecords u.settings t (if c.page.isSet then c else c.offset 0 1)
    pure (first found)

/-! ## The end -/

def hasFailed (u : UnitOfWork) : Bool := !u.errors.isEmpty

/-- Ends the transaction, if there is one. -/
def settle (u : UnitOfWork) : Attempt Unit :=
  if u.inTransaction then (if u.hasFailed then askRollback else askCommit) else pure ()

/-- Ends the unit of work. The outbox is flushed if there is a store to replicate into and the
changes stand; what fails there does not undo the changes. -/
def close (u : UnitOfWork) : Work (Except Failure Unit) := do
  let outcome ← u.settle.run
  if u.replicates && outcome.isOk && !(u.inTransaction && u.hasFailed) then do
    let _ ← u.outbox.flush
    pure outcome
  else pure outcome

/-- Ends the unit of work without its changes. -/
def abandon (u : UnitOfWork) : Work Unit := do
  if u.inTransaction then do
    let _ ← askRollback.run
    pure ()
  else pure ()

end UnitOfWork

end DualStore.Relational
