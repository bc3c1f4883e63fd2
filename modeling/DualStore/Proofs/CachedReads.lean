import DualStore.Catalog
import DualStore.Proofs.FlushedOutboxes
import DualStore.Proofs.SerializedForms

/-!
# Reads through the cache

Reads whose answers are kept in the cache of a source, in between saves, updates and deletes. The
first read of a key that succeeds runs its pipeline and leaves its answer in the cache; from then on
every read of the key gives this answer and runs nothing, whatever it asks for and whatever was
written.

* `Work.Uncached`: work that leaves the cache alone;
* `runWith_throughCache_hit`, `runWith_throughCache_miss`: one read, with and without an answer in
  the cache;
* `Answer`, `CachedRead`, `CachedRead.runWith_work`: what a read gives, and a read of either kind;
* `Visit`, `visitAll`, `remembered`: calls of sessions one after the other, and the first answer to
  the reads of a key;
* `Remembers`, `Remembers.read`, `Remembers.visitAll`: the cache holds the first answers;
* `reads_through`: the main statement.
-/

namespace DualStore

/-! ## Work beside the cache -/

def Request.isCaching : Request → Bool
  | .cacheGet _ => true
  | .cachePut _ _ _ => true
  | _ => false

/-- Whether work leaves the cache alone. -/
abbrev Work.Uncached {α : Type} (p : Work α) : Prop := p.Asks fun r => r.isCaching = false

theorem Work.Uncached.cache_eq {α : Type} {p : Work α} (h : p.Uncached) (client : String)
    (b : Backend) : (Work.runWith (Backend.answer client) p b).2.cache = b.cache
      ∧ (Work.runWith (Backend.answer client) p b).2.now = b.now := by
  have hkept : p.Asks fun r => ∀ b : Backend, ((Backend.answer client r b).2.cache,
      (Backend.answer client r b).2.now) = (b.cache, b.now) := by
    refine h.imp fun r hr b => ?_
    cases r with
    | cacheGet key => cases hr
    | cachePut key value seconds => cases hr
    | _ => exact rfl
  exact Prod.mk.inj (hkept.view_eq (fun b => (b.cache, b.now)) b)

/-- A backend with the cache that keeps an answer, if there is one. -/
def Backend.keep {α : Type} (b : Backend) (kept : α → Cache) : Except Failure α → Backend
  | .ok a => { b with cache := some (kept a) }
  | .error _ => b

theorem Work.runWith_map {α β σ : Type} {answer : (r : Request) → σ → r.Answer × σ} (p : Work α)
    (f : α → β) (s : σ) : Work.runWith answer (p >>= fun a => pure (f a)) s
      = (f (Work.runWith answer p s).1, (Work.runWith answer p s).2) := Work.runWith_bind p _ s

theorem Attempt.runWith_ofExcept_map {α β γ σ : Type}
    {answer : (r : Request) → σ → r.Answer × σ} (x : Attempt α) (g : α → Except Failure β)
    (f : β → γ) (s : σ) :
    Attempt.runWith answer (x >>= fun a => Attempt.ofExcept ((g a).map f)) s
      = ((Attempt.runWith answer (x >>= fun a => Attempt.ofExcept (g a)) s).1.map f,
        (Attempt.runWith answer (x >>= fun a => Attempt.ofExcept (g a)) s).2) := by
  simp only [Attempt.runWith_bind]
  cases Attempt.runWith answer x s with
  | mk result after => cases result <;> rfl

namespace Document

theorem uncached_read (m : Model.EntityMeta) (c : Criteria) : Work.Uncached (read m c).run :=
  Work.Asks.attempt trivial fun _ => ⟨rfl, fun _ => trivial⟩

theorem uncached_saveDocuments (collection : String) (docs : List Document) :
    Work.Uncached (saveDocuments collection docs).run :=
  (Outbox.asks_saveFrom collection [] docs).imp fun r h => by
    cases r with
    | cacheGet key => cases h
    | cachePut key value seconds => cases h
    | _ => exact rfl

theorem uncached_documentsOf (node : Int) (t : Model.EntityType) (m : Model.EntityMeta)
    (entities : List Json) : (documentsOf node t m entities).Uncached := by
  induction entities with
  | nil => trivial
  | cons entity rest ih =>
    have hidentified : (identified node t entity).Uncached := by
      rw [identified]
      split
      · exact ⟨rfl, fun _ => trivial⟩
      · trivial
    refine hidentified.bind fun entity => ?_
    dsimp only
    split
    · trivial
    · exact ih.bind fun _ => trivial

theorem uncached_saveEntities (node : Int) (t : Model.EntityType) (entities : List Json) :
    (saveEntities node t entities).Uncached := by
  rw [saveEntities]
  split
  · trivial
  · split
    · trivial
    · next m _ =>
      refine (uncached_documentsOf node t m entities).bind fun made => ?_
      dsimp only
      split
      · trivial
      · exact (uncached_saveDocuments m.table _).bind fun _ => trivial

theorem uncached_deleteEntities (t : Model.EntityType) (entities : List Json) :
    Work.Uncached (deleteEntities t entities).run := by
  unfold deleteEntities
  split
  · trivial
  · refine Work.Asks.attempt trivial fun m => ?_
    by_cases hzero : (entities.map t.identityOf).contains 0 = true
    · simp only [hzero]
      trivial
    · simp only [hzero]
      exact ⟨rfl, fun _ => trivial⟩

theorem uncached_updateMatching (c : Criteria) : Work.Uncached (updateMatching c).run :=
  Work.Asks.attempt trivial fun _ => Work.Asks.attempt trivial fun _ =>
    Work.Asks.attempt trivial fun _ => ⟨rfl, fun _ => trivial⟩

/-! ## One read -/

section ThroughCache

variable {α β : Type} {client : String} {directive : CacheDirective} {ofJson? : Json → Option α}
  {toJson : α → Json} {read : Attempt α} {b : Backend} {cache : Cache}

theorem runWith_askCache (client : String) (hcache : b.cache = some cache) (key : String) :
    Attempt.runWith (Backend.answer client) (askCache key) b
      = ((cache.get b.now key).1.mapError Failure.cache,
        { b with cache := some (cache.get b.now key).2 }) := by
  have hanswer : Backend.answer client (.cacheGet key) b
      = ((cache.get b.now key).1, { b with cache := some (cache.get b.now key).2 }) := by
    rw [Backend.answer, hcache]
    rfl
  have hrun : Attempt.runWith (Backend.answer client) (askCache key) b
      = ((Backend.answer client (.cacheGet key) b).1.mapError Failure.cache,
        (Backend.answer client (.cacheGet key) b).2) := rfl
  rw [hrun, hanswer]

theorem runWith_tellCache (client : String) (hcache : b.cache = some cache) (key : String)
    (value : Json) (seconds : Int) :
    Attempt.runWith (Backend.answer client) (tellCache key value seconds) b
      = ((cache.put b.now key value seconds).1.mapError Failure.cache,
        { b with cache := some (cache.put b.now key value seconds).2 }) := by
  have hanswer : Backend.answer client (.cachePut key value seconds) b
      = ((cache.put b.now key value seconds).1,
        { b with cache := some (cache.put b.now key value seconds).2 }) := by
    rw [Backend.answer, hcache]
    rfl
  have hrun : Attempt.runWith (Backend.answer client) (tellCache key value seconds) b
      = ((Backend.answer client (.cachePut key value seconds) b).1.mapError Failure.cache,
        (Backend.answer client (.cachePut key value seconds) b).2) := rfl
  rw [hrun, hanswer]

/-- A read whose directive is not active, or which has no cache. -/
theorem throughCache_noCache (active : directive.isActive = true) :
    throughCache false directive ofJson? toJson read = throw .noCache := by
  rw [throughCache, active]
  rfl

/-- The cache as it is may be put in its place. -/
theorem with_cache_self (hcache : b.cache = some cache) : { b with cache := some cache } = b := by
  cases b
  cases hcache
  rfl

/-- An answer that is in the cache is given, and nothing else is asked. -/
theorem runWith_throughCache_hit (active : directive.isActive = true)
    (hcache : b.cache = some cache) {value : Json} {a : α}
    (hget : cache.get b.now directive.fullKey = (.ok (some value), cache))
    (hread : ofJson? value = some a) :
    Attempt.runWith (Backend.answer client) (throughCache true directive ofJson? toJson read) b
      = (.ok a, b) := by
  have hasked := runWith_askCache client hcache directive.fullKey
  rw [hget, with_cache_self hcache] at hasked
  rw [throughCache, active]
  refine (Attempt.runWith_bind_of_ok hasked).trans ?_
  simp only [hread]
  rfl

/-- Without an answer in the cache the read is made, and its answer is put there. -/
theorem runWith_throughCache_miss (active : directive.isActive = true)
    (hcache : b.cache = some cache)
    (hget : cache.get b.now directive.fullKey = (.ok none, cache))
    (uncached : Work.Uncached read.run) {result : Except Failure α} {between : Backend}
    (hread : Attempt.runWith (Backend.answer client) read b = (result, between))
    {kept : α → Cache}
    (hput : ∀ a, cache.put b.now directive.fullKey (toJson a) directive.expire
      = (.ok (), kept a)) :
    Attempt.runWith (Backend.answer client) (throughCache true directive ofJson? toJson read) b
      = (result, between.keep kept result) := by
  have hasked := runWith_askCache client hcache directive.fullKey
  rw [hget, with_cache_self hcache] at hasked
  obtain ⟨hkept, hnow⟩ := uncached.cache_eq client b
  have hbetween : Work.runWith (Backend.answer client) read.run b = (result, between) := hread
  rw [hbetween] at hkept hnow
  change between.now = b.now at hnow
  rw [throughCache, active]
  refine (Attempt.runWith_bind_of_ok hasked).trans ?_
  cases result with
  | error e =>
    refine (Attempt.runWith_bind read _ b).trans ?_
    rw [hread]
    rfl
  | ok a =>
    refine (Attempt.runWith_bind_of_ok hread).trans ?_
    have htold := runWith_tellCache client (hkept.trans hcache) directive.fullKey
      (toJson a) directive.expire
    have hkeeps := hput a
    rw [← hnow] at hkeeps
    rw [hkeeps] at htold
    exact (Attempt.runWith_bind_of_ok htold).trans rfl

/-- The answers of a read may be put in another form before they go to the cache. -/
theorem runWith_throughCache_map (client : String) (hasCache : Bool) (directive : CacheDirective)
    (f : α → β) (toJson : α → Json) {read' : Attempt β} (ofJson?' : Json → Option β)
    (toJson' : β → Json) (hof : ∀ v, ofJson?' v = (ofJson? v).map f)
    (hto : ∀ a, toJson' (f a) = toJson a)
    (hread : ∀ b, Attempt.runWith (Backend.answer client) read' b
      = ((Attempt.runWith (Backend.answer client) read b).1.map f,
        (Attempt.runWith (Backend.answer client) read b).2)) (b : Backend) :
    Attempt.runWith (Backend.answer client) (throughCache hasCache directive ofJson?' toJson' read')
        b
      = ((Attempt.runWith (Backend.answer client)
          (throughCache hasCache directive ofJson? toJson read) b).1.map f,
        (Attempt.runWith (Backend.answer client)
          (throughCache hasCache directive ofJson? toJson read) b).2) := by
  unfold throughCache
  cases directive.isActive with
  | false => exact hread b
  | true =>
    cases hasCache with
    | false => rfl
    | true =>
      simp only [Bool.not_true, Bool.false_eq_true, if_false, Attempt.runWith_bind]
      cases Attempt.runWith (Backend.answer client) (askCache directive.fullKey) b with
      | mk hit asked =>
        cases hit with
        | error e => rfl
        | ok hit =>
          cases hit with
          | some value =>
            simp only [hof]
            cases ofJson? value <;> rfl
          | none =>
            simp only [Attempt.runWith_bind, hread]
            cases Attempt.runWith (Backend.answer client) read asked with
            | mk result between =>
              cases result with
              | error e => rfl
              | ok a =>
                simp only [Except.map, hto]
                cases Attempt.runWith (Backend.answer client)
                  (tellCache directive.fullKey (toJson a) directive.expire) between with
                | mk told after => cases told <;> rfl

end ThroughCache

end Document

/-! ## Reads of both kinds -/

/-- What a read gives: entities, or the first one if there is one. -/
inductive Answer where
  | list (entities : List Json)
  | one (entity : Option Json)

/-- Whether a read is for all entities or for the first one. -/
inductive ReadKind where
  | list
  | one
  deriving DecidableEq

namespace Answer

def toJson : Answer → Json
  | .list entities => .arr entities
  | .one entity => entity.getD .null

def ofJson? (layout : Model.Layout) (value : Json) : ReadKind → Option Answer
  | .list => (Document.entitiesOfJson? layout value).map .list
  | .one => (Document.entityOfJson? layout value).map .one

/-- Whether an answer is one to a read of a kind, its entities in the form in which they are
read. -/
def IsFor (layout : Model.Layout) : Answer → ReadKind → Prop
  | .list entities, .list => ∀ e ∈ entities, layout.read? e = some e
  | .one entity, .one => ∀ e, entity = some e → e ≠ .null ∧ layout.read? e = some e
  | _, _ => False

/-- An answer is found in its value. -/
theorem ofJson?_toJson {layout : Model.Layout} {answer : Answer} {kind : ReadKind}
    (h : answer.IsFor layout kind) : ofJson? layout answer.toJson kind = some answer := by
  cases answer with
  | list entities =>
    cases kind with
    | one => exact h.elim
    | list =>
      have hread : Document.entitiesOfJson? layout (.arr entities) = some entities :=
        Model.readAll_of_fixed h
      rw [ofJson?, toJson, hread, Option.map_some]
  | one entity =>
    cases kind with
    | list => exact h.elim
    | one =>
      cases entity with
      | none => rfl
      | some e =>
        obtain ⟨hne, hfixed⟩ := h e rfl
        have hread : Document.entityOfJson? layout e = some (some e) := by
          rw [Document.entityOfJson?, hfixed, Option.map_some]
          exact hne
        rw [ofJson?, toJson, Option.getD_some, hread, Option.map_some]

end Answer

/-- A read of a session that goes through the cache. -/
structure CachedRead where
  kind : ReadKind
  session : DocumentSession
  type : Model.EntityType
  criteria : Criteria

namespace CachedRead

def key (r : CachedRead) : String := r.criteria.cache.fullKey

/-- The criteria of the pipeline: the first entity is asked for as a window. -/
def window (r : CachedRead) : Criteria :=
  match r.kind with
  | .list => r.criteria
  | .one => r.criteria.offset 0 1

/-- The answer that documents give. -/
def answerOf (r : CachedRead) (m : Model.EntityMeta) (docs : List Json) : Except Failure Answer :=
  match r.kind with
  | .list => (Document.toEntities m.idField r.type.layout docs).map .list
  | .one => (Document.firstEntity m.idField r.type.layout docs).map .one

/-- The read that runs its own pipeline. -/
def direct (r : CachedRead) (m : Model.EntityMeta) : Attempt Answer := do
  let docs ← Document.read m r.window
  Attempt.ofExcept (r.answerOf m docs)

def work (r : CachedRead) : Work (Document.Found Answer) :=
  match r.kind with
  | .list => do
    let found ← r.session.findList r.type r.criteria
    pure ⟨found.1.result.map .list, found.1.page⟩
  | .one => do
    let found ← r.session.findOne r.type r.criteria
    pure ⟨found.1.result.map .one, found.1.page⟩

def through (r : CachedRead) (m : Model.EntityMeta) : Attempt Answer :=
  Document.throughCache r.session.hasCache r.criteria.cache
    (fun value => Answer.ofJson? r.type.layout value r.kind) Answer.toJson (r.direct m)

theorem uncached_direct (r : CachedRead) (m : Model.EntityMeta) :
    Work.Uncached (r.direct m).run :=
  (Document.uncached_read m r.window).attempt fun _ => trivial

variable {r : CachedRead} {client : String}

/-- A read for all entities through the cache counts nothing. -/
theorem runWith_findList {hasCache : Bool} {t : Model.EntityType} {c : Criteria}
    (active : c.cache.isActive = true) (targets : c.checkTarget t = .ok ()) (b : Backend) :
    Work.runWith (Backend.answer client) (Document.findList hasCache t c) b
      = match t.checked with
        | .error e => (⟨.error e, c.page⟩, b)
        | .ok m =>
          let ran := Attempt.runWith (Backend.answer client)
            (Document.throughCache hasCache c.cache (Document.entitiesOfJson? t.layout) .arr do
              let docs ← Document.read m c
              Attempt.ofExcept (Document.toEntities m.idField t.layout docs)) b
          (⟨ran.1, c.page⟩, ran.2) := by
  have hchecked : (do c.checkTarget t; t.checked : Except Failure Model.EntityMeta)
      = t.checked := by
    rw [targets]
    rfl
  rw [Document.findList, hchecked]
  cases t.checked with
  | error e => rfl
  | ok m =>
    have hpage : Document.countedPage m c = pure c.page := by
      rw [Document.countedPage, active, Bool.not_true, Bool.and_false]
      rfl
    simp only [hpage]
    exact (Work.runWith_bind _ _ b).trans (Work.runWith_bind _ _ b)

theorem runWith_findOne {hasCache : Bool} {t : Model.EntityType} {c : Criteria}
    (targets : c.checkTarget t = .ok ()) (b : Backend) :
    Work.runWith (Backend.answer client) (Document.findOne hasCache t c) b
      = match t.checked with
        | .error e => (⟨.error e, c.page⟩, b)
        | .ok m =>
          let ran := Attempt.runWith (Backend.answer client)
            (Document.throughCache hasCache c.cache (Document.entityOfJson? t.layout)
              (fun e => e.getD .null) do
                let docs ← Document.read m (c.offset 0 1)
                Attempt.ofExcept (Document.firstEntity m.idField t.layout docs)) b
          (⟨ran.1, (c.offset 0 1).page⟩, ran.2) := by
  have hchecked : (do c.checkTarget t; t.checked : Except Failure Model.EntityMeta)
      = t.checked := by
    rw [targets]
    rfl
  rw [Document.findOne, hchecked]
  cases t.checked with
  | error e => rfl
  | ok m => exact Work.runWith_bind _ _ b

/-- A read of either kind checks the type first, and then reads through the cache; a read for all
entities leaves the page of its criteria as it is. -/
theorem runWith_work (r : CachedRead) (client : String)
    (active : r.criteria.cache.isActive = true)
    (targets : r.criteria.checkTarget r.type = .ok ()) (b : Backend) :
    ∃ page, (r.kind = .list → page = r.criteria.page)
      ∧ Work.runWith (Backend.answer client) r.work b = match r.type.checked with
        | .error e => (⟨.error e, page⟩, b)
        | .ok m => (⟨(Attempt.runWith (Backend.answer client) (r.through m) b).1, page⟩,
          (Attempt.runWith (Backend.answer client) (r.through m) b).2) := by
  obtain ⟨kind, session, t, c⟩ := r
  cases kind with
  | list =>
    refine ⟨c.page, fun _ => rfl, ?_⟩
    simp only [CachedRead.work, DocumentSession.findList, DocumentSession.readCall,
      Work.runWith_map, runWith_findList active targets]
    cases t.checked with
    | error e => rfl
    | ok m =>
      have hmap := Document.runWith_throughCache_map client session.hasCache c.cache Answer.list
        .arr (fun value => Answer.ofJson? t.layout value .list) Answer.toJson (fun _ => rfl)
        (fun _ => rfl)
        (Attempt.runWith_ofExcept_map (Document.read m c)
          (Document.toEntities m.idField t.layout) Answer.list) b
      simp only [CachedRead.through, CachedRead.direct, CachedRead.window, CachedRead.answerOf,
        hmap]
  | one =>
    simp only [CachedRead.work, DocumentSession.findOne, DocumentSession.readCall,
      Work.runWith_map, runWith_findOne targets]
    cases t.checked with
    | error e => exact ⟨c.page, by simp, rfl⟩
    | ok m =>
      refine ⟨(c.offset 0 1).page, by simp, ?_⟩
      have hmap := Document.runWith_throughCache_map client session.hasCache c.cache Answer.one
        (fun e => e.getD .null) (fun value => Answer.ofJson? t.layout value .one) Answer.toJson
        (fun _ => rfl) (fun _ => rfl)
        (Attempt.runWith_ofExcept_map (Document.read m (c.offset 0 1))
          (Document.firstEntity m.idField t.layout) Answer.one) b
      simp only [CachedRead.through, CachedRead.direct, CachedRead.window, CachedRead.answerOf,
        hmap]

/-- An entity that a layout reads in an object is not null. -/
theorem ne_null_of_read? {layout : Model.Layout} {fields : Fields} {e : Json}
    (h : layout.read? (.obj fields) = some e) : e ≠ .null := by
  cases layout with
  | integer => cases h
  | anything =>
    obtain rfl := Option.some.inj h
    simp
  | record members =>
    obtain ⟨given, -, rfl⟩ := Option.map_eq_some_iff.mp h
    simp

theorem isForm_toEntity {idField : String} {layout : Model.Layout}
    (roundTrips : layout.RoundTrips) {doc e : Json}
    (h : Document.toEntity idField layout doc = .ok e) : e ≠ .null ∧ layout.read? e = some e := by
  cases doc with
  | obj fields =>
    cases hread : layout.read? (.obj (Document.entityFields idField fields)) with
    | none =>
      simp only [Document.toEntity, hread] at h
      cases h
    | some entity =>
      simp only [Document.toEntity, hread] at h
      obtain rfl := Except.ok.inj h
      exact ⟨ne_null_of_read? hread, roundTrips _ _ hread⟩
  | _ => cases h

theorem isForm_toEntities {idField : String} {layout : Model.Layout}
    (roundTrips : layout.RoundTrips) {docs entities : List Json}
    (h : Document.toEntities idField layout docs = .ok entities) :
    ∀ e ∈ entities, layout.read? e = some e := by
  induction docs generalizing entities with
  | nil =>
    obtain rfl := Except.ok.inj h
    simp
  | cons doc rest ih =>
    rw [Document.toEntities] at h
    cases hfirst : Document.toEntity idField layout doc with
    | error e =>
      rw [hfirst] at h
      cases h
    | ok first =>
      cases hrest : Document.toEntities idField layout rest with
      | error e =>
        rw [hfirst, hrest] at h
        cases h
      | ok others =>
        rw [hfirst, hrest] at h
        obtain rfl := Except.ok.inj h
        exact List.forall_mem_cons.mpr ⟨(isForm_toEntity roundTrips hfirst).2, ih hrest⟩

/-- An answer that documents give has the form in which its entities are read. -/
theorem isFor_answerOf (roundTrips : r.type.layout.RoundTrips) {m : Model.EntityMeta}
    {docs : List Json} {answer : Answer} (h : r.answerOf m docs = .ok answer) :
    answer.IsFor r.type.layout r.kind := by
  obtain ⟨kind, session, t, c⟩ := r
  cases kind with
  | list =>
    cases hentities : Document.toEntities m.idField t.layout docs with
    | error e =>
      rw [answerOf, hentities] at h
      cases h
    | ok entities =>
      rw [answerOf, hentities] at h
      obtain rfl := Except.ok.inj h
      exact isForm_toEntities roundTrips hentities
  | one =>
    cases docs with
    | nil =>
      obtain rfl := Except.ok.inj h
      exact fun e he => by cases he
    | cons doc rest =>
      cases hentity : Document.toEntity m.idField t.layout doc with
      | error e =>
        rw [answerOf, Document.firstEntity, hentity] at h
        cases h
      | ok entity =>
        rw [answerOf, Document.firstEntity, hentity] at h
        obtain rfl := Except.ok.inj h
        rintro e he
        obtain rfl := Option.some.inj he
        exact isForm_toEntity roundTrips hentity

/-- A read that succeeds has run one pipeline. -/
theorem runWith_direct_ok {m : Model.EntityMeta} {answer : Answer} {b between : Backend}
    (h : Attempt.runWith (Backend.answer client) (r.direct m) b = (.ok answer, between)) :
    ∃ stages docs, Document.pipelineOf r.window m.idField false = .ok stages
      ∧ between.documents.journal = b.documents.journal ++ [.aggregate m.table stages]
      ∧ r.answerOf m docs = .ok answer := by
  obtain ⟨docs, afterRead, hread, hanswer⟩ := Attempt.runWith_bind_ok h
  obtain ⟨stages, lifted, hstages, hasked⟩ := Attempt.runWith_bind_ok hread
  obtain ⟨hpipeline, rfl⟩ := Attempt.runWith_lift_ok hstages
  rw [Attempt.runWith_ofExcept, Prod.mk.injEq] at hanswer
  obtain ⟨hanswer, rfl⟩ := hanswer
  refine ⟨stages, docs, hpipeline, ?_, hanswer⟩
  obtain rfl : _ = afterRead := congrArg Prod.snd hasked
  have hjournal : ∀ call, (b.documents.perform call).2.journal = b.documents.journal ++ [call] := by
    intro call
    rw [JournaledStore.perform]
    split <;> rfl
  exact hjournal (.aggregate m.table stages)

/-- A read that runs its own pipeline leaves the cache as it is. -/
theorem cache_direct {m : Model.EntityMeta} {result : Except Failure Answer} {b between : Backend}
    (h : Attempt.runWith (Backend.answer client) (r.direct m) b = (result, between)) :
    between.cache = b.cache := by
  have hkept := ((r.uncached_direct m).cache_eq client b).1
  have hrun : Work.runWith (Backend.answer client) (r.direct m).run b = (result, between) := h
  rwa [hrun] at hkept

end CachedRead

/-! ## Calls one after the other -/

/-- A call of a session that changes documents. An update of entities is a save. -/
inductive SourceWrite where
  | save (session : DocumentSession) (t : Model.EntityType) (entities : List Json)
  | saveDocuments (session : DocumentSession) (collection : String) (docs : List Document)
  | delete (session : DocumentSession) (t : Model.EntityType) (entities : List Json)
  | updateMatching (session : DocumentSession) (c : Criteria)

/-- The work of such a call; what it gives is not told further. -/
def SourceWrite.work : SourceWrite → Work Unit
  | .save session t entities => session.save t entities >>= fun _ => pure ()
  | .saveDocuments session collection docs =>
    session.saveDocuments collection docs >>= fun _ => pure ()
  | .delete session t entities => session.delete t entities >>= fun _ => pure ()
  | .updateMatching session c => session.updateMatching c >>= fun _ => pure ()

/-- No call that changes documents asks the cache. -/
theorem SourceWrite.uncached (w : SourceWrite) : w.work.Uncached := by
  cases w with
  | save session t entities =>
    refine Work.Asks.bind ?_ fun _ => trivial
    exact (Document.uncached_saveEntities session.node t entities).bind fun _ => trivial
  | saveDocuments session collection docs =>
    refine Work.Asks.bind ?_ fun _ => trivial
    exact (Document.uncached_saveDocuments collection docs).bind fun _ => trivial
  | delete session t entities =>
    refine Work.Asks.bind ?_ fun _ => trivial
    exact (Document.uncached_deleteEntities t entities).bind fun _ => trivial
  | updateMatching session c =>
    refine Work.Asks.bind ?_ fun _ => trivial
    exact (Document.uncached_updateMatching c).bind fun _ => trivial

/-- A call of a session of a source. -/
inductive SourceCall where
  | read (r : CachedRead)
  | write (w : SourceWrite)

/-- The work of a call, and what it gives if it is a read. -/
def SourceCall.work : SourceCall → Work (Option (Document.Found Answer))
  | .read r => r.work >>= fun found => pure (some found)
  | .write w => w.work >>= fun _ => pure none

/-- A call at a time. -/
structure Visit where
  now : Nat
  call : SourceCall

def Backend.at (b : Backend) (now : Nat) : Backend := { b with now := now }

/-- The calls of a run with what their reads gave. -/
abbrev VisitLog := List (Visit × Option (Document.Found Answer))

/-- What a call gives, and the backend behind it. -/
def Visit.perform (client : String) (b : Backend) (v : Visit) :
    Option (Document.Found Answer) × Backend :=
  (b.at v.now).perform client v.call.work

theorem Visit.perform_read (client : String) (b : Backend) (now : Nat) (r : CachedRead) :
    Visit.perform client b ⟨now, .read r⟩
      = (some (Work.runWith (Backend.answer client) r.work (b.at now)).1,
        (Work.runWith (Backend.answer client) r.work (b.at now)).2) :=
  Work.runWith_map r.work some (b.at now)

theorem Visit.perform_write (client : String) (b : Backend) (now : Nat) (w : SourceWrite) :
    Visit.perform client b ⟨now, .write w⟩
      = (none, (Work.runWith (Backend.answer client) w.work (b.at now)).2) :=
  Work.runWith_map w.work (fun _ => none) (b.at now)

/-- Calls one after the other, and the backend behind them. -/
def visitAll (client : String) (b : Backend) : List Visit → VisitLog × Backend
  | [] => ([], b)
  | v :: rest =>
    let (found, b) := v.perform client b
    let (log, b) := visitAll client b rest
    ((v, found) :: log, b)

/-- The answer to a call, if it is a read of a key that succeeded. -/
def answerUnder (key : String) (entry : Visit × Option (Document.Found Answer)) : Option Answer :=
  match entry.1.call, entry.2 with
  | .read r, some found => if r.key = key then found.result.toOption else none
  | _, _ => none

theorem answerUnder_read (key : String) (now : Nat) (r : CachedRead)
    (found : Document.Found Answer) : answerUnder key (⟨now, .read r⟩, some found)
      = if r.key = key then found.result.toOption else none := rfl

/-- The first answer to the reads of a key. -/
def remembered (key : String) (log : VisitLog) : Option Answer := log.findSome? (answerUnder key)

theorem remembered_concat (key : String) (log : VisitLog)
    (entry : Visit × Option (Document.Found Answer)) :
    remembered key (log ++ [entry]) = (remembered key log).or (answerUnder key entry) := by
  rw [remembered, List.findSome?_append]
  congr 1
  simp [List.findSome?]
  cases answerUnder key entry <;> rfl

/-- Whether the cache can keep the answer to a call at its time, if it is a read. -/
def Cache.CanKeep (cache : Cache) (v : Visit) : Prop :=
  match v.call with
  | .read r => v.now / 1000 + cache.lifetime r.criteria.cache.expire ≤ Cache.maxSeconds
  | .write _ => True

instance (cache : Cache) : (v : Visit) → Decidable (cache.CanKeep v)
  | ⟨now, .read r⟩ => inferInstanceAs
      (Decidable (now / 1000 + cache.lifetime r.criteria.cache.expire ≤ Cache.maxSeconds))
  | ⟨_, .write _⟩ => inferInstanceAs (Decidable True)

/-- Whether no entry of the cache is gone whenever a call is made, and no answer is to be kept
longer than the clock can express. -/
def Unexpired (client : String) : Backend → List Visit → Prop
  | _, [] => True
  | b, v :: rest =>
    (∀ cache ∈ b.cache, (∀ entry ∈ cache.entries, v.now < entry.2.deadline) ∧ cache.CanKeep v)
      ∧ Unexpired client (v.perform client b).2 rest

instance decidableUnexpired (client : String) : (b : Backend) → (visits : List Visit) →
    Decidable (Unexpired client b visits)
  | _, [] => inferInstanceAs (Decidable True)
  | b, v :: rest =>
    have := decidableUnexpired client (v.perform client b).2 rest
    inferInstanceAs (Decidable ((∀ cache ∈ b.cache,
      (∀ entry ∈ cache.entries, v.now < entry.2.deadline) ∧ cache.CanKeep v)
        ∧ Unexpired client (v.perform client b).2 rest))

/-- What is assumed of a read: its directive is active, the source of its session has a cache, it
reads the type that its criteria is made for, its key is used for answers of one type, which make
round trips, and is not in the cache from before. -/
structure Suits (shape : String → ReadKind × Model.EntityType) (start : Cache) (r : CachedRead) :
    Prop where
  active : r.criteria.cache.isActive = true
  cached : r.session.hasCache = true
  targets : r.criteria.checkTarget r.type = .ok ()
  shape : shape r.key = (r.kind, r.type)
  roundTrips : r.type.layout.RoundTrips
  fresh : Keyed.get? r.key start.entries = none

/-- The cache holds the first answers of a run. -/
structure Remembers (shape : String → ReadKind × Model.EntityType) (start : Cache)
    (log : VisitLog) (cache : Cache) : Prop where
  usable : cache.isPoisoned = false
  values : ∀ key, Keyed.get? key start.entries = none →
    (Keyed.get? key cache.entries).map CacheEntry.value
      = (remembered key log).map Answer.toJson
  forms : ∀ key answer, remembered key log = some answer →
    answer.IsFor (shape key).2.layout (shape key).1 ∧ ∃ m, (shape key).2.checked = .ok m

/-- What a read through the cache does behind the calls of a log. -/
structure ReadThrough (client : String) (log : VisitLog) (r : CachedRead) (before after : Backend)
    (found : Document.Found Answer) : Prop where
  /-- If a read of the key has succeeded, its answer is given again, and nothing is asked. -/
  hit : ∀ answer, remembered r.key log = some answer →
    found.result = .ok answer ∧ after = before
  /-- If none has, the read itself is made. -/
  miss : ∀ m, r.type.checked = .ok m → remembered r.key log = none →
    ∃ between, Attempt.runWith (Backend.answer client) (r.direct m) before
        = (found.result, between) ∧ after.documents = between.documents
  /-- The first read that succeeds runs its pipeline. -/
  ran : ∀ answer, remembered r.key log = none → found.result = .ok answer →
    ∃ m stages, r.type.checked = .ok m
      ∧ Document.pipelineOf r.window m.idField false = .ok stages
      ∧ after.documents.journal = before.documents.journal ++ [.aggregate m.table stages]
  /-- The answer of a read that succeeds is in the cache. -/
  stored : ∀ answer, found.result = .ok answer → ∃ cache, after.cache = some cache
    ∧ (Keyed.get? r.key cache.entries).map CacheEntry.value = some answer.toJson
  /-- A read that fails leaves the cache as it is. -/
  failed : ∀ e, found.result = .error e → after.cache = before.cache
  page : r.kind = .list → found.page = r.criteria.page

theorem Cache.get_eq {cache : Cache} {now : Nat} (husable : cache.isPoisoned = false)
    (alive : ∀ entry ∈ cache.entries, now < entry.2.deadline) (key : String) :
    cache.get now key = (.ok ((Keyed.get? key cache.entries).map CacheEntry.value), cache) := by
  rw [Cache.get, husable, if_neg Bool.false_ne_true]
  cases hget : Keyed.get? key cache.entries with
  | none => rfl
  | some entry =>
    simp only [if_pos (alive _ (Keyed.mem_of_get? hget))]
    rfl

def Cache.keep (cache : Cache) (now : Nat) (key : String) (value : Json) (seconds : Int) : Cache :=
  { cache with
    entries := Keyed.put key ⟨value, now + cache.lifetime seconds * 1000⟩ cache.entries }

theorem Cache.put_eq {cache : Cache} {now : Nat} (husable : cache.isPoisoned = false)
    (alive : ∀ entry ∈ cache.entries, now < entry.2.deadline) (key : String) (value : Json)
    {seconds : Int} (inRange : now / 1000 + cache.lifetime seconds ≤ Cache.maxSeconds) :
    cache.put now key value seconds = (.ok (), cache.keep now key value seconds) := by
  have hkept : (cache.entries.filter fun entry => now < entry.2.deadline) = cache.entries :=
    List.filter_eq_self.mpr fun entry hmem => decide_eq_true (alive entry hmem)
  rw [Cache.put, husable, if_neg Bool.false_ne_true]
  simp only [hkept, if_neg (Nat.not_lt.mpr inRange), Cache.keep, husable]

namespace Remembers

variable {shape : String → ReadKind × Model.EntityType} {start cache : Cache} {log : VisitLog}
  {client : String} {b : Backend} {r : CachedRead}

/-- A call that gives no new answer and leaves the cache as it is. -/
theorem concat (h : Remembers shape start log cache)
    {entry : Visit × Option (Document.Found Answer)}
    (hentry : ∀ key answer, answerUnder key entry = some answer →
      remembered key log = some answer) :
    Remembers shape start (log ++ [entry]) cache := by
  have hsame : ∀ key, remembered key (log ++ [entry]) = remembered key log := by
    intro key
    rw [remembered_concat]
    cases hlog : remembered key log with
    | some answer => rfl
    | none =>
      cases hnew : answerUnder key entry with
      | none => rfl
      | some answer => rw [hentry key answer hnew] at hlog; cases hlog
  refine ⟨h.usable, fun key hkey => ?_, fun key answer hanswer => ?_⟩
  · rw [hsame]
    exact h.values key hkey
  · rw [hsame] at hanswer
    exact h.forms key answer hanswer

/-- A read that gives a new answer, which is put into the cache. -/
theorem concat_new (h : Remembers shape start log cache) (hr : Suits shape start r)
    {entry : Visit × Option (Document.Found Answer)} {answer : Answer} (now : Nat) (seconds : Int)
    (hnone : remembered r.key log = none)
    (hentry : ∀ key, answerUnder key entry = if r.key = key then some answer else none)
    (hform : answer.IsFor r.type.layout r.kind) {m : Model.EntityMeta}
    (hm : r.type.checked = .ok m) :
    Remembers shape start (log ++ [entry]) (cache.keep now r.key answer.toJson seconds) := by
  refine ⟨h.usable, fun key hkey => ?_, fun key given hgiven => ?_⟩
  · by_cases hsame : r.key = key
    · subst hsame
      rw [remembered_concat, hnone, hentry, if_pos rfl, Cache.keep, Keyed.get?_put_self]
      rfl
    · rw [remembered_concat, hentry, if_neg hsame, Option.or_none, Cache.keep,
        Keyed.get?_put_of_ne hsame]
      exact h.values key hkey
  · by_cases hsame : r.key = key
    · subst hsame
      rw [remembered_concat, hnone, hentry, if_pos rfl, Option.none_or, Option.some.injEq] at hgiven
      subst hgiven
      rw [hr.shape]
      exact ⟨hform, m, hm⟩
    · rw [remembered_concat, hentry, if_neg hsame, Option.or_none] at hgiven
      exact h.forms key given hgiven

/-- What one read does behind the calls of a log, and that the cache holds the first answers
then. -/
def ReadsOn (shape : String → ReadKind × Model.EntityType) (start : Cache) (client : String)
    (log : VisitLog) (b : Backend) (r : CachedRead) : Prop :=
  ∃ found after, Work.runWith (Backend.answer client) r.work b = (found, after)
    ∧ ReadThrough client log r b after found
    ∧ ∃ kept, after.cache = some kept
      ∧ Remembers shape start (log ++ [(⟨b.now, .read r⟩, some found)]) kept

/-- A read of a type that is rejected fails before it asks for anything; no such read has succeeded
before. -/
theorem read_rejected (h : Remembers shape start log cache) (hcache : b.cache = some cache)
    (hr : Suits shape start r) {e : Failure} (hrejected : r.type.checked = .error e) :
    ReadsOn shape start client log b r := by
  have hnone : remembered r.key log = none := by
    cases hlog : remembered r.key log with
    | none => rfl
    | some answer =>
      obtain ⟨-, m, hm⟩ := h.forms r.key answer hlog
      rw [hr.shape, hrejected] at hm
      cases hm
  obtain ⟨page, hpage, hwork⟩ := r.runWith_work client hr.active hr.targets b
  simp only [hrejected] at hwork
  refine ⟨_, _, hwork, ⟨?_, ?_, ?_, ?_, fun _ _ => rfl, hpage⟩, cache, hcache, h.concat ?_⟩
  · intro answer hanswer
    rw [hnone] at hanswer
    cases hanswer
  · intro m hm
    rw [hrejected] at hm
    cases hm
  · intro answer _ hok
    cases hok
  · intro answer hok
    cases hok
  · intro key answer hanswer
    rw [answerUnder_read] at hanswer
    split at hanswer <;> cases hanswer

/-- A read of a key that has an answer gives it again. -/
theorem read_hit (h : Remembers shape start log cache) (hcache : b.cache = some cache)
    (hr : Suits shape start r) (alive : ∀ entry ∈ cache.entries, b.now < entry.2.deadline)
    {m : Model.EntityMeta} (hm : r.type.checked = .ok m) {answer : Answer}
    (hlog : remembered r.key log = some answer) : ReadsOn shape start client log b r := by
  obtain ⟨hform, -⟩ := h.forms r.key answer hlog
  rw [hr.shape] at hform
  have hget := Cache.get_eq h.usable alive r.key
  rw [h.values r.key hr.fresh, hlog] at hget
  have hthrough : Attempt.runWith (Backend.answer client) (r.through m) b = (.ok answer, b) := by
    rw [CachedRead.through, hr.cached]
    exact Document.runWith_throughCache_hit hr.active hcache hget (Answer.ofJson?_toJson hform)
  obtain ⟨page, hpage, hwork⟩ := r.runWith_work client hr.active hr.targets b
  simp only [hm, hthrough] at hwork
  refine ⟨_, _, hwork, ⟨?_, ?_, ?_, ?_, fun _ _ => rfl, hpage⟩, cache, hcache, h.concat ?_⟩
  · intro given hgiven
    rw [hlog] at hgiven
    exact ⟨congrArg Except.ok (Option.some.inj hgiven), rfl⟩
  · intro _ _ hnone
    rw [hlog] at hnone
    cases hnone
  · intro _ hnone
    rw [hlog] at hnone
    cases hnone
  · intro given hgiven
    obtain rfl := Except.ok.inj hgiven
    refine ⟨cache, hcache, ?_⟩
    rw [h.values r.key hr.fresh, hlog]
    rfl
  · intro key given hgiven
    rw [answerUnder_read] at hgiven
    split at hgiven
    · next heq =>
      rw [← heq, hlog]
      exact hgiven
    · cases hgiven

/-- A read of a key that has no answer runs its own pipeline, and its answer is put into the
cache. -/
theorem through_miss (h : Remembers shape start log cache) (hcache : b.cache = some cache)
    (hr : Suits shape start r) (alive : ∀ entry ∈ cache.entries, b.now < entry.2.deadline)
    (inRange : b.now / 1000 + cache.lifetime r.criteria.cache.expire ≤ Cache.maxSeconds)
    (hlog : remembered r.key log = none) {m : Model.EntityMeta} {result : Except Failure Answer}
    {between : Backend}
    (hdirect : Attempt.runWith (Backend.answer client) (r.direct m) b = (result, between)) :
    Attempt.runWith (Backend.answer client) (r.through m) b = (result, between.keep
      (fun answer => cache.keep b.now r.key answer.toJson r.criteria.cache.expire) result) := by
  have hget := Cache.get_eq h.usable alive r.key
  rw [h.values r.key hr.fresh, hlog] at hget
  rw [CachedRead.through, hr.cached]
  exact Document.runWith_throughCache_miss hr.active hcache hget (r.uncached_direct m) hdirect
    fun answer => Cache.put_eq h.usable alive r.key answer.toJson inRange

/-- A read of a key that has no answer is made itself. -/
theorem read_miss (h : Remembers shape start log cache) (hcache : b.cache = some cache)
    (hr : Suits shape start r) (alive : ∀ entry ∈ cache.entries, b.now < entry.2.deadline)
    (inRange : b.now / 1000 + cache.lifetime r.criteria.cache.expire ≤ Cache.maxSeconds)
    {m : Model.EntityMeta} (hm : r.type.checked = .ok m) (hlog : remembered r.key log = none) :
    ReadsOn shape start client log b r := by
  obtain ⟨page, hpage, hwork⟩ := r.runWith_work client hr.active hr.targets b
  cases hdirect : Attempt.runWith (Backend.answer client) (r.direct m) b with
  | mk result between =>
    have hkept := CachedRead.cache_direct hdirect
    simp only [hm, h.through_miss hcache hr alive inRange hlog hdirect] at hwork
    have hnew : ∀ key, answerUnder key (⟨b.now, .read r⟩, some ⟨result, page⟩)
        = if r.key = key then result.toOption else none := fun _ => rfl
    cases result with
    | error e =>
      refine ⟨_, _, hwork, ⟨?_, ?_, ?_, ?_, fun _ _ => hkept, hpage⟩, cache, hkept.trans hcache,
        h.concat ?_⟩
      · intro answer hanswer
        rw [hlog] at hanswer
        cases hanswer
      · intro m' hm' _
        obtain rfl := Except.ok.inj (hm.symm.trans hm')
        exact ⟨between, hdirect, rfl⟩
      · intro answer _ hok
        cases hok
      · intro answer hok
        cases hok
      · intro key answer hanswer
        rw [hnew] at hanswer
        split at hanswer <;> cases hanswer
    | ok answer =>
      obtain ⟨stages, docs, hstages, hjournal, hanswer⟩ := CachedRead.runWith_direct_ok hdirect
      refine ⟨_, _, hwork, ⟨?_, ?_, ?_, ?_, (fun _ hok => by cases hok), hpage⟩, _, rfl,
        h.concat_new hr b.now r.criteria.cache.expire hlog hnew
          (CachedRead.isFor_answerOf hr.roundTrips hanswer) hm⟩
      · intro given hgiven
        rw [hlog] at hgiven
        cases hgiven
      · intro m' hm' _
        obtain rfl := Except.ok.inj (hm.symm.trans hm')
        exact ⟨between, hdirect, rfl⟩
      · exact fun given _ _ => ⟨m, stages, hm, hstages, hjournal⟩
      · intro given hok
        obtain rfl := Except.ok.inj hok
        exact ⟨_, rfl, congrArg _ (Keyed.get?_put_self _ _ _)⟩

/-- **One read through the cache**: it gives the first answer to the reads of its key, or it is
made itself; the cache holds the first answers behind it. -/
theorem read (client : String) (h : Remembers shape start log cache) (hcache : b.cache = some cache)
    (hr : Suits shape start r) (alive : ∀ entry ∈ cache.entries, b.now < entry.2.deadline)
    (inRange : b.now / 1000 + cache.lifetime r.criteria.cache.expire ≤ Cache.maxSeconds) :
    ReadsOn shape start client log b r := by
  cases hchecked : r.type.checked with
  | error e => exact h.read_rejected hcache hr hchecked
  | ok m =>
    cases hlog : remembered r.key log with
    | some answer => exact h.read_hit hcache hr alive hchecked hlog
    | none => exact h.read_miss hcache hr alive inRange hchecked hlog

/-- **One call**: the cache holds the first answers behind it. -/
theorem visit (client : String) (h : Remembers shape start log cache)
    (hcache : b.cache = some cache) {v : Visit}
    (hsuits : ∀ r, v.call = .read r → Suits shape start r)
    (alive : ∀ entry ∈ cache.entries, v.now < entry.2.deadline) (canKeep : cache.CanKeep v) :
    ∃ kept, (v.perform client b).2.cache = some kept
      ∧ Remembers shape start (log ++ [(v, (v.perform client b).1)]) kept := by
  obtain ⟨now, call⟩ := v
  cases call with
  | read r =>
    obtain ⟨found, after, hwork, -, kept, hafter, hkept⟩ :=
      h.read client (b := b.at now) hcache (hsuits r rfl) alive canKeep
    rw [Visit.perform_read, hwork]
    exact ⟨kept, hafter, hkept⟩
  | write w =>
    rw [Visit.perform_write]
    refine ⟨cache, (w.uncached.cache_eq client (b.at now)).1.trans hcache, h.concat ?_⟩
    intro key answer hanswer
    cases hanswer

/-- **A run**: the cache holds the first answers behind it, by induction on the calls. -/
theorem visitAll {visits : List Visit} (h : Remembers shape start log cache)
    (hcache : b.cache = some cache)
    (hsuits : ∀ v ∈ visits, ∀ r, v.call = .read r → Suits shape start r)
    (hunexpired : Unexpired client b visits) :
    ∃ kept, (visitAll client b visits).2.cache = some kept
      ∧ Remembers shape start (log ++ (visitAll client b visits).1) kept := by
  induction visits generalizing b cache log with
  | nil =>
    rw [DualStore.visitAll, List.append_nil]
    exact ⟨cache, hcache, h⟩
  | cons v rest ih =>
    obtain ⟨hfirst, hrest⟩ := List.forall_mem_cons.mp hsuits
    obtain ⟨halive, hunexpired⟩ := hunexpired
    obtain ⟨alive, canKeep⟩ := halive cache hcache
    obtain ⟨between, hbetween, hremembers⟩ := h.visit client hcache hfirst alive canKeep
    have hall := ih hremembers hbetween hrest hunexpired
    rw [List.append_assoc] at hall
    exact hall

end Remembers

theorem unexpired_append {client : String} {b : Backend} {earlier later : List Visit} :
    Unexpired client b (earlier ++ later)
      ↔ Unexpired client b earlier ∧ Unexpired client (visitAll client b earlier).2 later := by
  induction earlier generalizing b with
  | nil => exact (and_iff_right trivial).symm
  | cons v rest ih =>
    rw [List.cons_append, Unexpired, Unexpired, ih, and_assoc]
    rfl

/-! ## The main statement -/

/-- **Reads through the cache.** Take a source with a cache that is usable, and any run of calls of
its sessions at any times, while no entry of the cache is gone: reads for all entities or for the
first one, each key for answers of one type, in between saves, updates and deletes. A read of a key
that has an answer gives it again, and nothing is asked of the store; one of a key that has none is
made itself, and if it succeeds its answer is put into the cache; one that fails leaves the cache as
it is. Without a cache every read of a type that is accepted fails before anything is asked, and
one of a type that is rejected fails for its declaration. -/
theorem reads_through {client : String} {b : Backend} {start : Cache}
    {shape : String → ReadKind × Model.EntityType} {visits : List Visit}
    (hcache : b.cache = some start) (usable : start.isPoisoned = false)
    (suits : ∀ v ∈ visits, ∀ r, v.call = .read r → Suits shape start r)
    (unexpired : Unexpired client b visits) :
    (∀ earlier now r later, visits = earlier ++ ⟨now, .read r⟩ :: later →
      ∃ found after, Visit.perform client (visitAll client b earlier).2 ⟨now, .read r⟩
          = (some found, after)
        ∧ ReadThrough client (visitAll client b earlier).1 r
          ((visitAll client b earlier).2.at now) after found)
    ∧ ∀ (other : Backend) (r : CachedRead), r.criteria.cache.isActive = true →
      r.criteria.checkTarget r.type = .ok () → r.session.hasCache = false →
      ∃ found, Work.runWith (Backend.answer client) r.work other = (found, other)
        ∧ (∀ m, r.type.checked = .ok m → found.result = .error .noCache)
        ∧ ∀ e, r.type.checked = .error e → found.result = .error e := by
  refine ⟨?_, fun other r active targets uncached => ?_⟩
  · rintro earlier now r later rfl
    obtain ⟨hearlier, hlater⟩ := unexpired_append.mp unexpired
    obtain ⟨hsuits, hlast⟩ := List.forall_mem_append.mp suits
    have hstart : Remembers shape start [] start :=
      ⟨usable, fun key hkey => by rw [hkey]; rfl, fun key answer hanswer => by cases hanswer⟩
    obtain ⟨kept, hkept, hremembers⟩ := hstart.visitAll hcache hsuits hearlier
    obtain ⟨halive, -⟩ := hlater
    obtain ⟨alive, canKeep⟩ := halive kept hkept
    obtain ⟨found, after, hwork, hthrough, -⟩ :=
      hremembers.read client (b := (visitAll client b earlier).2.at now) hkept
        (hlast _ List.mem_cons_self r rfl) alive canKeep
    refine ⟨found, after, ?_, hthrough⟩
    rw [Visit.perform_read, hwork]
  · obtain ⟨page, -, hwork⟩ := r.runWith_work client active targets other
    cases hchecked : r.type.checked with
    | error e =>
      simp only [hchecked] at hwork
      refine ⟨_, hwork, fun m hm => ?_, fun e' he => ?_⟩
      · cases hm
      · rw [Except.error.inj he]
    | ok m =>
      have hthrough : r.through m = throw .noCache := by
        rw [CachedRead.through, uncached]
        exact Document.throughCache_noCache active
      simp only [hchecked, hthrough, Attempt.runWith_throw] at hwork
      refine ⟨_, hwork, fun _ _ => rfl, fun e he => ?_⟩
      cases he

/-- A read of all accounts, whose answer is kept for ten seconds. -/
def readAccounts : CachedRead where
  kind := .list
  session := { hasCache := true }
  type := Catalog.account
  criteria := (Criteria.of Catalog.account).cached ⟨true, "", "accounts", 10⟩

/-- The accounts are read while there are none, and then one is saved. -/
def accountVisits : List Visit :=
  [⟨0, .read readAccounts⟩,
    ⟨6, .write (.save {} Catalog.account
      [.obj [("id", .int 1), ("owner", .str "a"), ("balance", .int 3)]])⟩]

/-- A backend with an empty cache and no documents. -/
def cachedBackend : Backend := { backendOf {} with cache := some {} }

theorem suits_readAccounts : Suits (fun _ => (.list, Catalog.account)) {} readAccounts where
  active := by decide
  cached := rfl
  targets := rfl
  shape := rfl
  roundTrips := Model.Layout.roundTrips fun members h => by
    obtain rfl := Model.Layout.record.inj h
    decide
  fresh := rfl

/-- When the accounts are read again the first answer is given, although there is an account by
now, and the store is not asked. -/
theorem reads_through_accounts :
    (∀ v ∈ accountVisits ++ [⟨7, .read readAccounts⟩], ∀ r, v.call = .read r →
      Suits (fun _ => (.list, Catalog.account)) {} r)
      ∧ Unexpired "" cachedBackend (accountVisits ++ [⟨7, .read readAccounts⟩])
      ∧ ∃ found after, Visit.perform "" (visitAll "" cachedBackend accountVisits).2
          ⟨7, .read readAccounts⟩ = (some found, after)
        ∧ found.result = .ok (.list [])
        ∧ after.documents = (visitAll "" cachedBackend accountVisits).2.documents := by
  have suits : ∀ v ∈ accountVisits ++ [⟨7, .read readAccounts⟩], ∀ r, v.call = .read r →
      Suits (fun _ => (.list, Catalog.account)) {} r := by
    intro v hv r hr
    have hread : r = readAccounts := by
      rcases List.mem_append.mp hv with hv | hv
      · rcases List.mem_cons.mp hv with rfl | hv
        · exact (SourceCall.read.inj hr).symm
        · rw [List.mem_singleton.mp hv] at hr
          cases hr
      · rw [List.mem_singleton.mp hv] at hr
        exact (SourceCall.read.inj hr).symm
    rw [hread]
    exact suits_readAccounts
  have unexpired : Unexpired "" cachedBackend (accountVisits ++ [⟨7, .read readAccounts⟩]) := by
    decide
  obtain ⟨hreads, -⟩ := reads_through (b := cachedBackend) rfl rfl suits unexpired
  obtain ⟨found, after, hperform, hthrough⟩ := hreads accountVisits 7 readAccounts [] rfl
  obtain ⟨hresult, hafter⟩ := hthrough.hit (.list []) rfl
  exact ⟨suits, unexpired, found, after, hperform, hresult, by rw [hafter]; rfl⟩

/-- A read of a type without a table, of a source without a cache. -/
def readUntabled : CachedRead where
  kind := .list
  session := {}
  type := Catalog.noTable
  criteria := (Criteria.of Catalog.noTable).cached ⟨true, "", "k", 10⟩

/-- A read of all accounts, whose answer is to be kept longer than the clock can express. -/
def readAccountsForever : CachedRead where
  kind := .list
  session := { hasCache := true }
  type := Catalog.account
  criteria := (Criteria.of Catalog.account).cached ⟨true, "", "forever", 9223372036854775807⟩

/-- The accounts are read, and one second later they are read under that other key. -/
def foreverVisits : List Visit := [⟨0, .read readAccounts⟩, ⟨1000, .read readAccountsForever⟩]

/-- A backend whose cache has the key of the accounts from before. -/
def filledBackend : Backend :=
  { backendOf {} with cache := some { entries := [(readAccounts.key, ⟨.arr [], 10000⟩)] } }

/-- Without a cache not every read fails for the lack of it: the type is checked first. An answer
that is to be kept too long makes the cache unusable, and a key that was given an answer gives it no
more, although its entry is not gone. A key that is in the cache from before is not read at all. -/
theorem not_always_read_through :
    (readUntabled.criteria.cache.isActive = true
      ∧ readUntabled.criteria.checkTarget readUntabled.type = .ok ()
      ∧ readUntabled.session.hasCache = false ∧ (backendOf {}).cache.isNone
      ∧ ∃ found, Work.runWith (Backend.answer "") readUntabled.work (backendOf {})
          = (found, backendOf {})
        ∧ found.result = .error (.declaration (.missingTable "NoTable"))
        ∧ found.result ≠ .error .noCache)
    ∧ ((∀ v ∈ foreverVisits, ∀ r, v.call = .read r →
        Suits (fun _ => (.list, Catalog.account)) {} r)
      ∧ (∀ cache ∈ (visitAll "" cachedBackend foreverVisits).2.cache,
        ∀ entry ∈ cache.entries, 2000 < entry.2.deadline)
      ∧ remembered readAccounts.key (visitAll "" cachedBackend foreverVisits).1 = some (.list [])
      ∧ ∃ found after, Visit.perform "" (visitAll "" cachedBackend foreverVisits).2
          ⟨2000, .read readAccounts⟩ = (some found, after)
        ∧ found.result = .error (.cache .poisoned))
    ∧ ∃ found after, Visit.perform "" filledBackend ⟨0, .read readAccounts⟩ = (some found, after)
      ∧ found.result = .ok (.list []) ∧ after.documents.journal = [] := by
  refine ⟨⟨by decide, rfl, rfl, rfl, _, rfl, rfl, fun h => ?_⟩,
    ⟨fun v hv r hr => ?_, by decide, rfl, _, _, rfl, rfl⟩, _, _, rfl, rfl, rfl⟩
  · cases h
  · rcases List.mem_cons.mp hv with rfl | hv
    · rw [← SourceCall.read.inj hr]
      exact suits_readAccounts
    · rw [List.mem_singleton.mp hv] at hr
      rw [← SourceCall.read.inj hr]
      exact ⟨by decide, rfl, rfl, rfl, suits_readAccounts.roundTrips, rfl⟩

end DualStore
