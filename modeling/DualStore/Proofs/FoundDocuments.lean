import DualStore.Proofs.SavedDocuments

/-!
# Documents found by their identities

A criteria that asks for an identity and nothing else finds the document in the file of that
identity, in every store whose files are those of documents.

* `Collection.Sound.filter_id`: the documents of an identity are the one in its file;
* `Store.document?`, `document?_putDocuments_of_isLast`: that document, also behind writes;
* `Store.Sound.aggregate_match`, `Store.Sound.aggregate_identity`: pipelines that ask for an
  identity;
* `Document.AsksFor`, `runWith_findOne`: the criteria that ask for an identity, and what they find.
-/

namespace DualStore

namespace Collection

variable {files : Files} {docs : List Document}

/-- A document that is read is the one in the file of its identity. -/
theorem Sound.ofText?_of_mem_readAll (h : Sound files) {ids : List Int}
    (hread : readAll files ids = .ok docs) {doc : Document} (hdoc : doc ∈ docs) :
    (Keyed.get? (fileName doc.id) files).bind Document.ofText? = some doc := by
  obtain ⟨id, -, htext⟩ := exists_of_mem_readAll hread hdoc
  obtain ⟨text, hget, hof⟩ := Option.bind_eq_some_iff.mp htext
  obtain ⟨stored, hstored, rfl, rfl⟩ := h.document_of_get? hget
  rw [Document.ofText?_toText hstored] at hof
  obtain rfl := Option.some.inj hof
  exact htext

/-- The documents of an identity are the one in its file. -/
theorem Sound.filter_id (h : Sound files) (hall : all files = .ok docs) {id : Int}
    (hid : Decimal.fitsInt64 id = true) :
    docs.filter (fun doc => doc.id = id)
      = ((Keyed.get? (fileName id) files).bind Document.ofText?).toList := by
  obtain ⟨read, hread, hnodup, -, hids⟩ := h.all_eq
  obtain rfl : docs = read := Except.ok.inj (hall.symm.trans hread)
  cases hfiltered : docs.filter (fun doc => doc.id = id) with
  | nil =>
    have hnone : Keyed.get? (fileName id) files = none := by
      rw [Keyed.get?_eq_none_iff, ← Keyed.has_iff_mem_keys, ← hids id hid]
      intro hmem
      obtain ⟨doc, hdoc, heq⟩ := List.mem_map.mp hmem
      have hfound : doc ∈ docs.filter (fun doc => doc.id = id) :=
        List.mem_filter.mpr ⟨hdoc, decide_eq_true heq⟩
      rw [hfiltered] at hfound
      exact List.not_mem_nil hfound
    rw [hnone]
    rfl
  | cons doc rest =>
    have hone := Document.length_filter_id_le_one hnodup id
    rw [hfiltered, List.length_cons] at hone
    obtain rfl : rest = [] := List.eq_nil_of_length_eq_zero (by omega)
    have hmem : doc ∈ docs.filter (fun doc => doc.id = id) := by
      rw [hfiltered]
      exact List.mem_cons_self
    obtain ⟨hdoc, heq⟩ := List.mem_filter.mp hmem
    rw [← of_decide_eq_true heq, h.ofText?_of_mem_readAll hall hdoc]
    rfl

end Collection

/-- The pipeline that asks for one document of an identity. -/
def Document.identityStages (id : Int) : List Json :=
  [operator "$match" (.obj [(idKey, .int id)]), operator "$skip" (.int 0),
    operator "$limit" (.int 1)]

namespace Store

variable {s : Store} {name : String}

def document? (s : Store) (name : String) (id : Int) : Option Document :=
  (s.fileText? name (Collection.fileName id)).bind Document.ofText?

/-- Behind documents written in order the last one of an identity is there. -/
theorem document?_putDocuments_of_isLast {doc : Document} {docs : List Document}
    (hlast : doc.IsLast docs) (hdoc : doc.Storable) (s : Store) (name : String) :
    (s.putDocuments name docs).document? name doc.id = some doc.reread := by
  rw [document?, fileText?_eq, filesOf_putDocuments, get?_foldl_write_of_isLast hlast]
  exact Document.ofText?_toText hdoc

/-- Documents of other identities stay. -/
theorem document?_putDocuments_of_ne {docs : List Document} {id : Int}
    (hne : ∀ doc ∈ docs, doc.id ≠ id) (s : Store) (name : String) :
    (s.putDocuments name docs).document? name id = s.document? name id := by
  have hfile : ∀ doc ∈ docs, Collection.fileName id ≠ Collection.fileName doc.id :=
    fun doc hdoc heq => hne doc hdoc (Collection.fileName_inj heq).symm
  rw [document?, fileText?_eq, filesOf_putDocuments, get?_foldl_write_of_ne hfile, document?,
    fileText?_eq]

/-- A pipeline that starts with an identity runs on the document of that identity. -/
theorem Sound.aggregate_match (h : s.Sound) (hvalid : Collection.checkName name = .ok ())
    {id : Int} (hid : Decimal.fitsInt64 id = true) {rest answer : List Json}
    (hrest : Document.run ((s.document? name id).toList.map Document.toJson) rest = .ok answer) :
    s.aggregate name
      (Document.operator "$match" (.obj [(Document.idKey, .int id)]) :: rest) = .ok answer := by
  have hrun : ∀ docs : List Document, (∀ doc ∈ docs, doc.Storable) →
      docs.filter (fun doc => doc.id = id) = (s.document? name id).toList →
      Document.run (docs.map Document.toJson)
        (Document.operator "$match" (.obj [(Document.idKey, .int id)]) :: rest) = .ok answer := by
    intro docs hdocs hfilter
    rw [Document.run_cons (Document.ofJson_match _), Document.Stage.apply,
      Document.filterDocs_id hdocs hid, hfilter]
    exact hrest
  have hdocument : s.document? name id
      = (Keyed.get? (Collection.fileName id) (s.filesOf name)).bind Document.ofText? := by
    rw [document?, fileText?_eq]
  rw [filesOf] at hdocument
  cases hget : Keyed.get? name s.directories with
  | none =>
    rw [hget] at hdocument
    have hempty := hrun [] (by simp) (by rw [hdocument]; rfl)
    rw [List.map_nil] at hempty
    simp only [aggregate, open?, hvalid, hget, hempty, Except.mapError]
  | some files =>
    rw [hget, Option.getD_some] at hdocument
    have hfiles := h.files_of_get? hget
    obtain ⟨docs, hdocs, -, hstorable, -⟩ := hfiles.all_eq
    have hfound := hrun docs hstorable (by rw [hdocument, hfiles.filter_id hdocs hid])
    simp only [aggregate, open?, hvalid, hget, hdocs, hfound, Except.mapError]

/-- The pipeline that asks for one document of an identity gives it. -/
theorem Sound.aggregate_identity (h : s.Sound) (hvalid : Collection.checkName name = .ok ())
    {id : Int} (hid : Decimal.fitsInt64 id = true) :
    s.aggregate name (Document.identityStages id)
      = .ok ((s.document? name id).toList.map Document.toJson) := by
  have hwindow := Document.run_skip_limit ((s.document? name id).toList.map Document.toJson) 0 1
  rw [List.drop_zero, List.take_of_length_le (by cases s.document? name id <;> simp)] at hwindow
  exact h.aggregate_match hvalid hid hwindow

end Store

namespace Document

open Model

/-- Whether a criteria can be used to read a type, has no condition but that the identity is the
given one, asks for whole documents in no order, and is not answered from the cache. -/
structure AsksFor (t : EntityType) (m : EntityMeta) (id : Int) (c : Criteria) : Prop where
  target : c.checkTarget t = .ok ()
  conditions : c.conditions = [.on .eq m.idField (.one (.integer id))]
  whole : c.fields = [] ∧ c.aggregates = []
  unordered : c.orders = []
  uncached : c.cache.isActive = false

theorem asksFor_eq (t : EntityType) (m : EntityMeta) (id : Int) :
    AsksFor t m id ((Criteria.of t).eq m.idField (.integer id)) :=
  ⟨if_pos rfl, rfl, ⟨rfl, rfl⟩, rfl, rfl⟩

theorem AsksFor.pipelineOf_eq {t : EntityType} {m : EntityMeta} {id : Int} {c : Criteria}
    (h : AsksFor t m id c) :
    pipelineOf (c.offset 0 1) m.idField false = .ok (identityStages id) := by
  have hkey : documentKey m.idField m.idField = idKey := by
    rw [documentKey, if_pos (.inl rfl)]
  have hfilter : filterOf (c.offset 0 1).conditions m.idField = .ok [(idKey, .int id)] := by
    have hconditions : (c.offset 0 1).conditions = [.on .eq m.idField (.one (.integer id))] :=
      h.conditions
    have hone : filterOf [.on .eq m.idField (.one (.integer id))] m.idField
        = .ok (mergeClause [] (documentKey m.idField m.idField) (.int id)) := rfl
    rw [hconditions, hone, hkey]
    rfl
  have hproject : projectStage (c.offset 0 1) m.idField = [] := if_pos h.whole.1
  have hsort : sortStage (c.offset 0 1) m.idField = [] := if_pos h.unordered
  have hgroup : groupStage (c.offset 0 1) m.idField = [] := if_pos h.whole.2
  rw [pipelineOf, hfilter, hproject, hsort, hgroup]
  rfl

/-- **Finding an entity by its identity** reads the document in the file of the identity. -/
theorem runWith_findOne {b : Backend} {s : Store} (client : String) (hasCache : Bool)
    {t : EntityType} {m : EntityMeta} (hresolve : t.resolve = .ok m) (hs : s.Sound)
    (hb : b.Serves s) (hvalid : Collection.checkName m.table = .ok ()) {id : Int}
    (hid : Decimal.fitsInt64 id = true) {c : Criteria} (hc : AsksFor t m id c) :
    (Work.runWith (Backend.answer client) (findOne hasCache t c) b).1.result
      = firstEntity m.idField t.layout ((s.document? m.table id).toList.map toJson) := by
  have hchecked : (do c.checkTarget t; t.checked : Except Failure EntityMeta) = .ok m := by
    rw [hc.target, EntityType.checked_of_resolve hresolve]
    rfl
  have hstages : Attempt.runWith (Backend.answer client) (Attempt.lift Failure.compile
      (pipelineOf (c.offset 0 1) m.idField false)) b
        = (.ok (identityStages id), b) := by
    rw [Attempt.lift, Attempt.runWith_ofExcept, hc.pipelineOf_eq]
    rfl
  obtain ⟨after, hasked, -⟩ := hb.ask client (.aggregate m.table (identityStages id))
    (Prod.ext (hs.aggregate_identity hvalid hid) rfl)
  have hread : Attempt.runWith (Backend.answer client)
      (read m (c.offset 0 1) >>= fun docs =>
        Attempt.ofExcept (firstEntity m.idField t.layout docs)) b
      = (firstEntity m.idField t.layout ((s.document? m.table id).toList.map toJson), after) := by
    have hdocs : Attempt.runWith (Backend.answer client)
        (read m (c.offset 0 1)) b
          = (.ok ((s.document? m.table id).toList.map toJson), after) :=
      (Attempt.runWith_bind_of_ok hstages).trans hasked
    rw [Attempt.runWith_bind_of_ok hdocs, Attempt.runWith_ofExcept]
  have hthrough : findOne hasCache t c
      = (read m (c.offset 0 1) >>= fun docs =>
          Attempt.ofExcept (firstEntity m.idField t.layout docs)).run >>= fun result =>
        pure ⟨result, (c.offset 0 1).page⟩ := by
    have hdirect : (c.offset 0 1).cache.isActive = false := hc.uncached
    simp only [findOne, hchecked, throughCache, hdirect, Bool.not_false, if_true]
  rw [hthrough, Work.runWith_bind, ← Attempt.runWith, hread]
  rfl

end Document

end DualStore
