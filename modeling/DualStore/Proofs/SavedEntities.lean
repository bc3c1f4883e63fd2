import DualStore.Proofs.EntityDocuments
import DualStore.Proofs.FoundDocuments

/-!
# Saved entities in a document store

A session saves entities as documents. Behind a save that succeeds, the last entity of each identity
is found under it, without its ignored fields, and what is found under any other identity is as it
was before.

* `Document.Identified`, `HasDocument`, `runWith_documentsOf`: entities get identities and
  documents;
* `runWith_saveFrom_long`, `saveDocuments_ok`: a save that succeeds has written all documents;
* `Document.IsLastOf`, `IsLastOf.isLast`: the last entity of an identity, and its document;
* `runWith_saveEntities`: a whole save;
* `Document.saved_entities_found`: the main statement.
-/

namespace DualStore

namespace Document

open Model

variable {t : EntityType} {m : EntityMeta}

/-! ## Documents of entities -/

/-- How an entity may change while it is saved: one without an identity gets a drawn one. -/
def Identified (t : EntityType) (drawn : List Int) (entity saved : Json) : Prop :=
  if t.identityOf entity = 0 then ∃ id ∈ drawn, saved = t.withIdentity id entity
  else saved = entity

/-- The number of entities without an identity. -/
def vacant (t : EntityType) (entities : List Json) : Nat :=
  entities.countP fun entity => t.identityOf entity = 0

/-- Whether an entity can be kept in a document, and which one that is. -/
def HasDocument (m : EntityMeta) (entity : Json) (doc : Document) : Prop :=
  ∃ body, entity = .obj body ∧ Carries m doc.id body ∧ ofEntity m doc.id (.obj body) = .ok doc

theorem HasDocument.identityOf (hkey : t.key = m.idField) {entity : Json} {doc : Document}
    (h : HasDocument m entity doc) : t.identityOf entity = doc.id := by
  obtain ⟨body, rfl, hbody, -⟩ := h
  exact hbody.identityOf hkey

theorem Identified.mono {drawn more : List Int} (hsubset : drawn ⊆ more) {entity saved : Json}
    (h : Identified t drawn entity saved) : Identified t more entity saved := by
  rw [Identified] at h ⊢
  split
  · next hzero =>
    rw [if_pos hzero] at h
    obtain ⟨id, hid, hsaved⟩ := h
    exact ⟨id, hsubset hid, hsaved⟩
  · next hzero => rwa [if_neg hzero] at h

theorem exists_hasDocument {id : Int} {body : Fields} (h : Carries m id body) :
    ∃ doc, HasDocument m (.obj body) doc ∧ doc.id = id :=
  ⟨make id (dropIgnored (Keyed.swapErase m.idField body) m.fields), ⟨body, rfl, h, rfl⟩, rfl⟩

/-- An entity without an identity draws one. -/
theorem runWith_identified (client : String) (node : Int) (t : EntityType) (entity : Json)
    (b : Backend) :
    Work.runWith (Backend.answer client) (identified node t entity) b
      = if t.identityOf entity = 0
        then (t.withIdentity (b.supply.draw node).1 entity,
          { b with supply := (b.supply.draw node).2 })
        else (entity, b) := by
  rw [identified]
  split <;> rfl

/-- The document of a first entity stands in front of the others. -/
theorem runWith_documentsOf_cons (client : String) (node : Int) (hkey : t.key = m.idField)
    {entity assigned : Json} {rest others : List Json} {doc : Document} {docs : List Document}
    {b between after : Backend}
    (hfirst : Work.runWith (Backend.answer client) (identified node t entity) b
      = (assigned, between))
    (hdoc : HasDocument m assigned doc)
    (hrest : Work.runWith (Backend.answer client) (documentsOf node t m rest) between
      = ((.ok docs, others), after)) :
    Work.runWith (Backend.answer client) (documentsOf node t m (entity :: rest)) b
      = ((.ok (doc :: docs), assigned :: others), after) := by
  have hidentity := hdoc.identityOf hkey
  obtain ⟨body, rfl, -, hof⟩ := hdoc
  rw [documentsOf, Work.runWith_bind, hfirst]
  simp only [hidentity, hof, Work.runWith_bind, hrest]
  rfl

/-- **Making documents of entities** gives an identity to each entity that has none, and a document
to each entity. -/
theorem runWith_documentsOf {s : Store} (client : String) (node : Int) (hkey : t.key = m.idField)
    {entities : List Json}
    (hentities : ∀ entity ∈ entities, ∃ id body, entity = .obj body ∧ Carries m id body)
    {b : Backend} (hb : b.Serves s)
    (hdrawn : ∀ id ∈ (b.supply.drawMany node (vacant t entities)).1,
      id ≠ 0 ∧ Decimal.fitsInt64 id = true) :
    ∃ docs saved after, Work.runWith (Backend.answer client) (documentsOf node t m entities) b
        = ((.ok docs, saved), after) ∧ after.Serves s ∧
      List.Forall₂ (Identified t (b.supply.drawMany node (vacant t entities)).1) entities saved ∧
      List.Forall₂ (HasDocument m) saved docs ∧ ∀ doc ∈ docs, doc.id ≠ 0 := by
  induction entities generalizing b with
  | nil => exact ⟨[], [], b, rfl, hb, .nil, .nil, by simp⟩
  | cons entity rest ih =>
    obtain ⟨⟨id, body, rfl, hbody⟩, hothers⟩ := List.forall_mem_cons.mp hentities
    have hidentity := hbody.identityOf hkey
    have hfirst := runWith_identified client node t (.obj body) b
    by_cases hzero : id = 0
    · -- The first identity is drawn; the others are drawn behind it.
      have hvacant : vacant t (.obj body :: rest) = vacant t rest + 1 :=
        List.countP_cons_of_pos (by rw [hidentity, hzero]; rfl)
      have hmany : (b.supply.drawMany node (vacant t rest + 1)).1
          = (b.supply.draw node).1 ::
            ((b.supply.draw node).2.drawMany node (vacant t rest)).1 := rfl
      rw [hvacant, hmany] at hdrawn ⊢
      obtain ⟨⟨hne, hfits⟩, hrest⟩ := List.forall_mem_cons.mp hdrawn
      have hserves : Backend.Serves { b with supply := (b.supply.draw node).2 } s :=
        ⟨hb.store, hb.failing⟩
      obtain ⟨docs, saved, after, hrun, hafter, hidentified, hdocs, hids⟩ :=
        ih hothers hserves hrest
      rw [hidentity, if_pos hzero] at hfirst
      have hassigned := hbody.withIdentity hfits
      rw [← hkey] at hassigned
      obtain ⟨doc, hdoc, hid⟩ := exists_hasDocument hassigned
      refine ⟨doc :: docs, _, after, runWith_documentsOf_cons client node hkey hfirst hdoc hrun,
        hafter, .cons ?_ (hidentified.imp fun _ _ => Identified.mono (List.subset_cons_self _ _)),
        .cons hdoc hdocs, List.forall_mem_cons.mpr ⟨by rwa [hid], hids⟩⟩
      rw [Identified, if_pos (hidentity.trans hzero)]
      exact ⟨_, List.mem_cons_self, rfl⟩
    · have hvacant : vacant t (.obj body :: rest) = vacant t rest :=
        List.countP_cons_of_neg (by simpa [hidentity] using hzero)
      rw [hvacant] at hdrawn ⊢
      obtain ⟨docs, saved, after, hrun, hafter, hidentified, hdocs, hids⟩ := ih hothers hb hdrawn
      rw [hidentity, if_neg hzero] at hfirst
      obtain ⟨doc, hdoc, hid⟩ := exists_hasDocument hbody
      refine ⟨doc :: docs, _, after, runWith_documentsOf_cons client node hkey hfirst hdoc hrun,
        hafter, .cons ?_ hidentified, .cons hdoc hdocs,
        List.forall_mem_cons.mpr ⟨by rwa [hid], hids⟩⟩
      rw [Identified, if_neg fun h => hzero (hidentity.symm.trans h)]

/-! ## Saves that succeed -/

/-- Documents for a collection that cannot get its directory are not saved. -/
theorem runWith_saveFrom_long {s : Store} (client : String) {name : String}
    (hvalid : Collection.checkName name = .ok ()) (hlong : Store.maxNameBytes < name.utf8ByteSize)
    (hnone : Keyed.get? name s.directories = none) (hs : s.Sound) {pending docs : List Document}
    (hdocs : ∀ doc ∈ docs, doc.Storable) (hne : pending ≠ [] ∨ docs ≠ []) {b : Backend}
    (hb : b.Serves s) :
    ∃ after, Attempt.runWith (Backend.answer client) (saveFrom name pending docs) b
      = (.error (.document .io), after) := by
  induction docs generalizing pending b with
  | nil =>
    obtain ⟨doc, others, rfl⟩ := List.exists_cons_of_ne_nil (hne.resolve_right (by simp))
    have hcall : s.perform (.insertMany name (doc :: others)) = (.error .io, s) := by
      rw [Store.perform, Store.insertMany]
      simp only [Store.create, hvalid, hnone, if_pos hlong]
      rfl
    obtain ⟨after, hrun, -⟩ := hb.ask client (.insertMany name (doc :: others)) hcall
    exact ⟨after, hrun⟩
  | cons doc rest ih =>
    obtain ⟨hdoc, hrest⟩ := List.forall_mem_cons.mp hdocs
    obtain ⟨found, hprobe, hfound⟩ := hs.aggregate_probe hvalid hdoc.fits
    obtain ⟨probed, hasked, hprobed⟩ := hb.ask client (.aggregate name (probe doc.id))
      (Prod.ext hprobe rfl)
    have hhas : ¬s.Has name doc.id := by
      rw [Store.Has, Store.filesOf, hnone]
      exact List.not_mem_nil
    have hpending : putPending doc pending ≠ [] := by
      cases pending with
      | nil => simp [putPending]
      | cons other others =>
        rw [putPending]
        split <;> simp
    obtain ⟨after, hrun⟩ := ih hrest (.inl hpending) hprobed
    refine ⟨after, ?_⟩
    rw [saveFrom_cons, Attempt.runWith_bind_of_ok hasked,
      if_neg fun hpos => hhas (hfound.mp hpos), hrun]

/-- **A save that succeeds has written all documents**, to a collection with a valid name. -/
theorem saveDocuments_ok {s : Store} (client : String) {name : String} {docs : List Document}
    (hne : docs ≠ []) (hdocs : ∀ doc ∈ docs, doc.Storable) (hs : s.Sound) (hshort : s.Short)
    {b after : Backend} (hb : b.Serves s)
    (h : Attempt.runWith (Backend.answer client) (saveDocuments name docs) b = (.ok (), after)) :
    Collection.checkName name = .ok () ∧ after.Serves (s.putDocuments name docs) := by
  cases hvalid : Collection.checkName name with
  | error e =>
    obtain ⟨doc, rest, rfl⟩ := List.exists_cons_of_ne_nil hne
    obtain ⟨failed, hrun, -⟩ := runWith_saveDocuments_invalid client hvalid doc rest hb
    rw [h] at hrun
    exact absurd (Prod.mk.inj hrun).1 (by simp)
  | ok _ =>
    refine ⟨rfl, ?_⟩
    by_cases hlong : Store.maxNameBytes < name.utf8ByteSize
    · have hnone : Keyed.get? name s.directories = none := by
        cases hget : Keyed.get? name s.directories with
        | none => rfl
        | some files => exact absurd (hshort.of_get? hget) (Nat.not_le.mpr hlong)
      obtain ⟨failed, hrun⟩ := runWith_saveFrom_long client hvalid hlong hnone hs hdocs
        (.inr hne) hb
      rw [saveDocuments, hrun] at h
      exact absurd (Prod.mk.inj h).1 (by simp)
    · obtain ⟨saved, hrun, hsaved⟩ :=
        runWith_saveDocuments client hvalid (Nat.not_lt.mp hlong) hdocs hs hb
      rw [h] at hrun
      rwa [(Prod.mk.inj hrun).2]

/-! ## The last entity of an identity -/

/-- Whether an entity is the last of its identity in a list. -/
def IsLastOf (t : EntityType) (entity : Json) (entities : List Json) : Prop :=
  ∃ before later, entities = before ++ entity :: later ∧
    ∀ other ∈ later, t.identityOf other ≠ t.identityOf entity

theorem exists_isLastOf {entities : List Json} {id : Int} (h : id ∈ entities.map t.identityOf) :
    ∃ entity, IsLastOf t entity entities ∧ t.identityOf entity = id := by
  induction entities with
  | nil => exact absurd h List.not_mem_nil
  | cons first rest ih =>
    by_cases hrest : id ∈ rest.map t.identityOf
    · obtain ⟨entity, ⟨before, later, rfl, hlater⟩, hid⟩ := ih hrest
      exact ⟨entity, ⟨first :: before, later, rfl, hlater⟩, hid⟩
    · have hfirst : id = t.identityOf first := (List.mem_cons.mp h).resolve_right hrest
      refine ⟨first, ⟨[], rest, rfl, fun other hother heq => hrest ?_⟩, hfirst.symm⟩
      rw [hfirst, ← heq]
      exact List.mem_map_of_mem hother

/-- The entity at the end of a list is the last of its identity. -/
theorem IsLastOf.eq_of_concat {front : List Json} {entity last : Json}
    (h : IsLastOf t entity (front ++ [last])) (hid : t.identityOf last = t.identityOf entity) :
    entity = last := by
  obtain ⟨before, later, heq, hlater⟩ := h
  rcases later.eq_nil_or_concat' with rfl | ⟨others, other, rfl⟩
  · exact (List.append_singleton_inj.mp heq).2.symm
  · rw [← List.cons_append, ← List.append_assoc] at heq
    obtain rfl := (List.append_singleton_inj.mp heq).2
    exact absurd hid (hlater last (by simp))

/-- Entities and their documents have the same identities. -/
theorem map_identityOf (hkey : t.key = m.idField) {saved : List Json} {docs : List Document}
    (h : List.Forall₂ (HasDocument m) saved docs) :
    saved.map t.identityOf = docs.map Document.id := by
  induction h with
  | nil => rfl
  | cons hdoc _ ih => rw [List.map_cons, List.map_cons, hdoc.identityOf hkey, ih]

theorem HasDocument.storable {entity : Json} {doc : Document} (h : HasDocument m entity doc) :
    doc.Storable := by
  obtain ⟨body, -, hbody, hof⟩ := h
  exact hbody.storable hof

theorem storable_documents {saved : List Json} {docs : List Document}
    (h : List.Forall₂ (HasDocument m) saved docs) : ∀ doc ∈ docs, doc.Storable := by
  induction h with
  | nil => simp
  | cons hdoc _ ih => exact List.forall_mem_cons.mpr ⟨hdoc.storable, ih⟩

/-- The document of the last entity of an identity is the last document of the identity. -/
theorem IsLastOf.isLast (hkey : t.key = m.idField) {entity : Json} {saved : List Json}
    {docs : List Document} (h : IsLastOf t entity saved)
    (hdocs : List.Forall₂ (HasDocument m) saved docs) :
    ∃ doc, HasDocument m entity doc ∧ doc.IsLast docs := by
  obtain ⟨before, later, rfl, hlater⟩ := h
  induction before generalizing docs with
  | nil =>
    cases hdocs with
    | cons hdoc hrest =>
      refine ⟨_, hdoc, [], _, rfl, fun other hother heq => ?_⟩
      have hid := List.mem_map_of_mem (f := Document.id) hother
      rw [← map_identityOf hkey hrest] at hid
      obtain ⟨given, hgiven, hsame⟩ := List.mem_map.mp hid
      exact hlater given hgiven (hsame.trans (heq.trans (hdoc.identityOf hkey).symm))
  | cons first before ih =>
    cases hdocs with
    | cons _ hrest =>
      obtain ⟨doc, hdoc, front, behind, heq, hbehind⟩ := ih hrest
      exact ⟨doc, hdoc, _ :: front, behind, by rw [heq]; rfl, hbehind⟩

/-! ## The main statement -/

/-- The entity that a session finds first by a criteria. -/
def firstFound (client : String) (reader : DocumentSession) (t : EntityType) (c : Criteria)
    (b : Backend) : Except Failure (Option Json) :=
  (b.perform client (reader.findOne t c)).1.1.result

def decoded (t : EntityType) (fields : Fields) : Except Failure (Option Json) :=
  match t.layout.read? (.obj fields) with
  | some entity => .ok (some entity)
  | none => .error .json

theorem firstFound_eq {s : Store} (client : String) (reader : DocumentSession)
    (hresolve : t.resolve = .ok m) (hs : s.Sound)
    (hvalid : Collection.checkName m.table = .ok ()) {b : Backend} (hb : b.Serves s) {id : Int}
    (hid : Decimal.fitsInt64 id = true) {c : Criteria} (hc : AsksFor t m id c) :
    firstFound client reader t c b
      = firstEntity m.idField t.layout ((s.document? m.table id).toList.map toJson) := by
  have hcall : b.perform client (reader.findOne t c)
      = Work.runWith (Backend.answer client) (findOne reader.hasCache t c >>= fun found =>
          pure (found, reader.record found.result)) b := rfl
  rw [firstFound, hcall, Work.runWith_bind]
  exact runWith_findOne client reader.hasCache hresolve hs hb hvalid hid hc

/-- A save makes documents of the entities and saves them. -/
theorem runWith_saveEntities {s : Store} (client : String) (session : DocumentSession)
    (hresolve : t.resolve = .ok m) (hkey : t.key = m.idField) {entities : List Json}
    (hne : entities ≠ [])
    (hentities : ∀ entity ∈ entities, ∃ id body, entity = .obj body ∧ Carries m id body)
    {b : Backend} (hb : b.Serves s)
    (hdrawn : ∀ id ∈ (b.supply.drawMany session.node (vacant t entities)).1,
      id ≠ 0 ∧ Decimal.fitsInt64 id = true) :
    ∃ docs saved made, docs ≠ [] ∧ made.Serves s ∧
      List.Forall₂ (Identified t (b.supply.drawMany session.node (vacant t entities)).1)
        entities saved ∧
      List.Forall₂ (HasDocument m) saved docs ∧ (∀ doc ∈ docs, doc.id ≠ 0) ∧
      ∀ result after,
        Attempt.runWith (Backend.answer client) (saveDocuments m.table docs) made
            = (result, after) →
        b.perform client (session.save t entities)
          = (((result, saved), session.record result), after) := by
  obtain ⟨docs, saved, made, hrun, hmade, hidentified, hdocs, hids⟩ :=
    runWith_documentsOf client session.node hkey hentities hb hdrawn
  refine ⟨docs, saved, made, ?_, hmade, hidentified, hdocs, hids, fun result after hsave => ?_⟩
  · rintro rfl
    cases hdocs
    cases hidentified
    exact hne rfl
  · have hchecked := EntityType.checked_of_resolve hresolve
    have hentitiesSave : Work.runWith (Backend.answer client)
        (saveEntities session.node t entities) b = ((result, saved), after) := by
      rw [saveEntities, if_neg (by simpa using hne)]
      simp only [hchecked, Work.runWith_bind, hrun]
      rw [← Attempt.runWith, hsave]
      rfl
    have hcall : b.perform client (session.save t entities)
        = Work.runWith (Backend.answer client) (saveEntities session.node t entities >>=
            fun outcome => pure (outcome, session.record outcome.1)) b := rfl
    rw [hcall, Work.runWith_bind, hentitiesSave]
    rfl

theorem save_nil (client : String) (session : DocumentSession) (b : Backend) :
    (b.perform client (session.save t [])).1.1.1 = .error (.input (.noEntities "save")) := rfl

/-- The document of an entity is decoded as the entity without its ignored fields. -/
theorem HasDocument.firstEntity_eq {entity : Json} {doc : Document} (hm : m.IsChecked)
    (h : HasDocument m entity doc) :
    ∃ body found, entity = .obj body ∧ WithoutIgnored m body found ∧
      firstEntity m.idField t.layout [doc.reread.toJson] = decoded t found := by
  obtain ⟨body, rfl, hbody, hof⟩ := h
  refine ⟨body, _, rfl, hbody.withoutIgnored_entityFields hm hof, ?_⟩
  rw [hbody.reread hof, firstEntity, toJson, toEntity, decoded]
  cases t.layout.read? (.obj (entityFields m.idField ((idKey, .int doc.id) :: doc.fields))) <;> rfl

/-- **Saved entities are found again.** Take a document store that calls have reached, a type with
checked metadata, and entities that can be kept in documents, with or without identities, repeated
or not; the identities that are drawn are not zero. When a session has saved the entities, each of
them has an identity that is not zero. Whoever asks for one of these identities finds the last
entity that was saved with it, without its ignored fields, or with the values of missing members in
their places if the type reads the entity as it is. Whoever asks for any other identity finds what
was found before. -/
theorem saved_entities_found {b after : Backend} (client : String)
    (session next reader : DocumentSession) (hresolve : t.resolve = .ok m)
    (hkey : t.key = m.idField) (reached : b.documents.store.Reached)
    (working : b.documents.failing = []) {entities saved : List Json}
    (hentities : ∀ entity ∈ entities, ∃ id body, entity = .obj body ∧ Carries m id body)
    (hdrawn : ∀ id ∈ (b.supply.drawMany session.node (vacant t entities)).1,
      id ≠ 0 ∧ Decimal.fitsInt64 id = true)
    (hsaved : b.perform client (session.save t entities) = (((.ok (), saved), next), after)) :
    List.Forall₂ (Identified t (b.supply.drawMany session.node (vacant t entities)).1)
        entities saved ∧
      (∀ entity ∈ saved, t.identityOf entity ≠ 0) ∧
      (∀ id ∈ saved.map t.identityOf, ∃ body found,
        IsLastOf t (.obj body) saved ∧ t.identityOf (.obj body) = id ∧
        WithoutIgnored m body found ∧
        (∀ c, AsksFor t m id c → firstFound client reader t c after = decoded t found) ∧
        (t.layout.read? (.obj body) = some (.obj body) →
          ∃ kept, decoded t found = .ok (some (.obj kept)) ∧
            ∀ key, Keyed.get? key kept = if ignores m.fields key then t.layout.initial? key
              else Keyed.get? key body)) ∧
      ∀ id c, Decimal.fitsInt64 id = true → id ∉ saved.map t.identityOf → AsksFor t m id c →
        firstFound client reader t c after = firstFound client reader t c b := by
  have hb : b.Serves b.documents.store := ⟨rfl, working⟩
  have hs := reached.sound
  have hne : entities ≠ [] := by
    rintro rfl
    have hempty := save_nil (t := t) client session b
    rw [hsaved] at hempty
    exact absurd hempty (by simp)
  obtain ⟨docs, given, made, hdocsNe, hmade, hidentified, hdocs, hids, hsave⟩ :=
    runWith_saveEntities client session hresolve hkey hne hentities hb hdrawn
  obtain ⟨⟨result, written⟩, hwrite⟩ : ∃ outcome, Attempt.runWith (Backend.answer client)
    (saveDocuments m.table docs) made = outcome := ⟨_, rfl⟩
  have hsame := hsaved.symm.trans (hsave result written hwrite)
  obtain ⟨hpair, rfl⟩ := Prod.mk.inj hsame
  obtain ⟨rfl, rfl⟩ := Prod.mk.inj (Prod.mk.inj hpair).1
  obtain ⟨hvalid, hafter⟩ :=
    saveDocuments_ok client hdocsNe (storable_documents hdocs) hs reached.short hmade hwrite
  have hidentities := map_identityOf hkey hdocs
  have hstorable := storable_documents hdocs
  have hwritten := hs.putDocuments m.table hstorable
  refine ⟨hidentified, ?_, ?_, ?_⟩
  · intro entity hentity
    have hid := List.mem_map_of_mem (f := t.identityOf) hentity
    rw [hidentities] at hid
    obtain ⟨doc, hdoc, heq⟩ := List.mem_map.mp hid
    rw [← heq]
    exact hids doc hdoc
  · intro id hid
    obtain ⟨entity, hlast, rfl⟩ := exists_isLastOf hid
    obtain ⟨doc, hdoc, hlastDoc⟩ := hlast.isLast hkey hdocs
    obtain ⟨body, found, rfl, hwithout, hdecoded⟩ :=
      hdoc.firstEntity_eq (t := t) (isChecked_resolve hresolve)
    refine ⟨body, found, hlast, rfl, hwithout, fun c hc => ?_, fun hread => ?_⟩
    · rw [hdoc.identityOf hkey] at hc
      rw [firstFound_eq client reader hresolve hwritten hvalid hafter hdoc.storable.fits hc,
        Store.document?_putDocuments_of_isLast hlastDoc hdoc.storable, ← hdecoded]
      rfl
    · obtain ⟨kept, hkept, hfields⟩ := Layout.read?_withoutIgnored hwithout hread
      refine ⟨kept, ?_, hfields⟩
      rw [decoded, hkept]
  · intro id c hfits hid hc
    rw [hidentities] at hid
    have hne : ∀ doc ∈ docs, doc.id ≠ id := by
      intro doc hdoc heq
      exact hid (heq ▸ List.mem_map_of_mem hdoc)
    rw [firstFound_eq client reader hresolve hwritten hvalid hafter hfits hc,
      firstFound_eq client reader hresolve hs hvalid hb hfits hc,
      Store.document?_putDocuments_of_ne hne]

/-- A type of cards; what is drafted is not stored. -/
def cardType : EntityType where
  name := "Card"
  identity := ⟨"uid", "card", false⟩
  fields := [⟨"title", .string, false, false⟩, ⟨"draft", .string, true, false⟩]
  layout := .record [⟨"uid", .int .w64⟩, ⟨"title", .text⟩, ⟨"draft", .text⟩]
  key := "uid"

def cardBody (uid : Int) (title draft : String) : Fields :=
  [("uid", .int uid), ("title", .str title), ("draft", .str draft)]

def cardStore : Store := (Store.perform {} (.insertMany "card" [⟨5, [("title", .str "old")]⟩])).2

/-- A backend with that store and a source of identities. -/
def cardBackend : Backend :=
  { documents := { store := cardStore }, supply := ⟨[], ⟨Snowflake.epoch + 1, []⟩⟩
    server := ⟨[], 0, []⟩, now := 0 }

/-- A card twice, and one without an identity in between. -/
def cards : List Json :=
  [.obj (cardBody 1 "a" "x"), .obj (cardBody 0 "b" ""), .obj (cardBody 1 "c" "y")]

/-- The cards behind a save: one of them has drawn an identity. -/
def savedCards : List Json :=
  [.obj (cardBody 1 "a" "x"), .obj (cardBody 4206592 "b" ""), .obj (cardBody 1 "c" "y")]

theorem eq_savedCards {saved : List Json}
    (h : List.Forall₂ (Identified cardType [4206592]) cards saved) : saved = savedCards := by
  obtain ⟨first, _, hfirst, hafterFirst, rfl⟩ := List.forall₂_cons_left_iff.mp h
  obtain ⟨second, _, hsecond, hafterSecond, rfl⟩ := List.forall₂_cons_left_iff.mp hafterFirst
  obtain ⟨third, _, hthird, hbehind, rfl⟩ := List.forall₂_cons_left_iff.mp hafterSecond
  obtain rfl := List.forall₂_nil_left_iff.mp hbehind
  rw [Identified, if_neg (by decide)] at hfirst hthird
  rw [Identified, if_pos (by decide)] at hsecond
  obtain ⟨id, hid, rfl⟩ := hsecond
  rw [hfirst, hthird, List.mem_singleton.mp hid]
  rfl

/-- Of the two versions of a card the later one is found, without its draft; the card that had no
identity has one; and the card that was not saved is found as before. -/
theorem saved_entities_found_cards :
    ∃ saved next after, cardBackend.perform "" (DocumentSession.save { node := 3 } cardType cards)
        = (((.ok (), saved), next), after) ∧
      (∀ entity ∈ saved, cardType.identityOf entity ≠ 0) ∧
      (∃ kept, firstFound "" {} cardType ((Criteria.of cardType).eq "uid" (.integer 1)) after
          = .ok (some (.obj kept)) ∧
        Keyed.get? "title" kept = some (.str "c") ∧ Keyed.get? "draft" kept = some (.str "")) ∧
      firstFound "" {} cardType ((Criteria.of cardType).eq "uid" (.integer 5)) after
        = firstFound "" {} cardType ((Criteria.of cardType).eq "uid" (.integer 5))
            cardBackend := by
  have hresolve : cardType.resolve = .ok ⟨"Card", "card", "uid", false, cardType.fields⟩ := rfl
  have reached : cardStore.Reached := .perform _ .empty (by decide)
  have hentities : ∀ entity ∈ cards, ∃ id body, entity = .obj body ∧
      Carries ⟨"Card", "card", "uid", false, cardType.fields⟩ id body := by
    intro entity hentity
    have hcards : entity = .obj (cardBody 1 "a" "x") ∨ entity = .obj (cardBody 0 "b" "") ∨
        entity = .obj (cardBody 1 "c" "y") := by
      simpa [cards] using hentity
    rcases hcards with rfl | rfl | rfl
    · exact ⟨1, _, rfl, rfl, by decide, by decide, by decide⟩
    · exact ⟨0, _, rfl, rfl, by decide, by decide, by decide⟩
    · exact ⟨1, _, rfl, rfl, by decide, by decide, by decide⟩
  have hdrawn : ∀ id ∈ (cardBackend.supply.drawMany 3 (vacant cardType cards)).1,
      id ≠ 0 ∧ Decimal.fitsInt64 id = true := by
    decide
  have hb : cardBackend.Serves cardStore := ⟨rfl, rfl⟩
  obtain ⟨docs, saved, made, -, hmade, -, hdocs, -, hsave⟩ := runWith_saveEntities ""
    { node := 3 } hresolve rfl (by decide) hentities hb hdrawn
  have hvalid : Collection.checkName "card" = .ok () := by decide
  have hshort : "card".utf8ByteSize ≤ Store.maxNameBytes := by decide
  obtain ⟨after, hwrite, -⟩ := runWith_saveDocuments "" hvalid hshort (storable_documents hdocs)
    reached.sound hmade
  have hsaved := hsave _ _ hwrite
  obtain ⟨hidentified, hnonzero, hfound, hothers⟩ := saved_entities_found "" { node := 3 } _ {}
    hresolve rfl reached rfl hentities hdrawn hsaved
  have hids : (cardBackend.supply.drawMany 3 (vacant cardType cards)).1 = [4206592] := by decide
  rw [hids] at hidentified
  obtain rfl := eq_savedCards hidentified
  refine ⟨_, _, after, hsaved, hnonzero, ?_, ?_⟩
  · obtain ⟨body, found, hlast, hid, -, hread, hkept⟩ := hfound 1 (by decide)
    -- The last card has the identity, so that it is the one that is found.
    have hbody : body = cardBody 1 "c" "y" := by
      have hconcat : IsLastOf cardType (.obj body) ([.obj (cardBody 1 "a" "x"),
          .obj (cardBody 4206592 "b" "")] ++ [.obj (cardBody 1 "c" "y")]) := hlast
      exact Json.obj.inj (hconcat.eq_of_concat hid.symm)
    subst hbody
    obtain ⟨kept, hdecoded, hfields⟩ := hkept rfl
    refine ⟨kept, ?_, (hfields "title").trans rfl, (hfields "draft").trans rfl⟩
    rw [hread _ (asksFor_eq _ _ _), hdecoded]
  · exact hothers 5 _ (by decide) (by decide) (asksFor_eq _ _ _)

end Document

end DualStore
