import DualStore.Backend
import DualStore.Proofs.IntegerDocuments
import DualStore.Proofs.PagedReads
import DualStore.Proofs.PlanRuns
import DualStore.Proofs.WrittenDocuments

/-!
# Saved documents

Saving documents is writing them one after the other: those whose identities are found are replaced
at once, the others are gathered, the last of each identity, and inserted at the end.

* `run_probe`: the probe finds an identity exactly if there is a document of it;
* `Backend.Serves`, `Serves.ask`: a backend that answers from a store, and one call;
* `Waiting`: what holds of the documents that wait; `putDocument` and `putPending` keep it;
* `runWith_saveFrom`: documents saved behind those that wait, by induction on the documents;
* `runWith_saveDocuments`, `runWith_saveDocuments_invalid`: a whole save.
-/

namespace DualStore

namespace Document

/-! ## The probe -/

variable {id : Int}

theorem satisfies_id {doc : Document} (hdoc : Decimal.fitsInt64 doc.id = true)
    (hid : Decimal.fitsInt64 id = true) :
    satisfies doc.toJson [(idKey, .int id)] = .ok (decide (doc.id = id)) := by
  have hfield : doc.toJson.field? idKey = some (.int doc.id) := by
    simp [toJson, Json.field?, Keyed.get?]
  have hmatches : fieldMatches (some (.int doc.id)) (.int id) = .ok (decide (doc.id = id)) := by
    rw [fieldMatches, operators?, equals_int hdoc hid]
    all_goals simp
  rw [satisfies, if_neg (by decide), if_neg (by decide), hfield, hmatches]
  cases decide (doc.id = id) <;> rfl

theorem filterDocs_id {docs : List Document} (hdocs : ∀ doc ∈ docs, doc.Storable)
    (hid : Decimal.fitsInt64 id = true) :
    filterDocs [(idKey, .int id)] (docs.map toJson)
      = .ok ((docs.filter fun doc => doc.id = id).map toJson) := by
  induction docs with
  | nil => rfl
  | cons doc rest ih =>
    obtain ⟨hdoc, hrest⟩ := List.forall_mem_cons.mp hdocs
    rw [List.map_cons, filterDocs, satisfies_id hdoc.fits hid, ih hrest]
    by_cases heq : doc.id = id <;> simp [heq]

/-- Documents of different identities have an identity at most once. -/
theorem length_filter_id_le_one {docs : List Document} (h : (docs.map Document.id).Nodup)
    (id : Int) : (docs.filter fun doc => doc.id = id).length ≤ 1 := by
  have hcount := List.nodup_iff_count.mp h id
  rw [List.count, List.countP_map, List.countP_eq_length_filter] at hcount
  exact hcount

/-- The probe finds an identity exactly if there is a document of it. -/
theorem run_probe {docs : List Document} (hdocs : ∀ doc ∈ docs, doc.Storable)
    (hnodup : (docs.map Document.id).Nodup) (hid : Decimal.fitsInt64 id = true) :
    ∃ found, run (docs.map toJson) (probe id) = .ok found
      ∧ (0 < countOf found ↔ id ∈ docs.map Document.id) := by
  obtain ⟨hits, hhits⟩ : ∃ hits, docs.filter (fun doc => doc.id = id) = hits := ⟨_, rfl⟩
  have hfiltered : filterDocs [(idKey, .int id)] (docs.map toJson) = .ok (hits.map toJson) := by
    rw [filterDocs_id hdocs hid, hhits]
  have hrun : run (docs.map toJson) (probe id) = .ok
      (if (hits.map toJson).isEmpty then []
        else [.obj [(countField, .int (hits.map toJson).length)]]) := by
    rw [probe, run_cons (ofJson_match _), Stage.apply, hfiltered, Except.bind,
      run_cons (ofJson_count countField), Stage.apply, Except.bind, run]
  refine ⟨_, hrun, ?_⟩
  have hmem : ∀ doc, doc ∈ hits ↔ doc ∈ docs ∧ doc.id = id := by
    intro doc
    rw [← hhits, List.mem_filter, decide_eq_true_iff]
  have hone : hits.length ≤ 1 := by
    rw [← hhits]
    exact length_filter_id_le_one hnodup id
  cases hits with
  | nil =>
    refine iff_of_false (by decide) fun hid => ?_
    obtain ⟨doc, hdoc, heq⟩ := List.mem_map.mp hid
    exact List.not_mem_nil ((hmem doc).mpr ⟨hdoc, heq⟩)
  | cons doc rest =>
    obtain ⟨hdoc, heq⟩ := (hmem doc).mp List.mem_cons_self
    have hcounted := countOf_count (n := ((doc :: rest).map toJson).length) (by
      rw [List.length_map]
      omega)
    have hpos : (0 : Int) < ((doc :: rest).map toJson).length := by simp
    rw [← hcounted] at hpos
    exact iff_of_true hpos (List.mem_map.mpr ⟨doc, hdoc, heq⟩)

end Document

/-! ## Calls on a store -/

namespace Store

variable {s : Store} {name : String}

/-- The probe of a collection finds exactly the identities that have files. -/
theorem Sound.aggregate_probe (h : s.Sound) (hvalid : Collection.checkName name = .ok ())
    {id : Int} (hid : Decimal.fitsInt64 id = true) :
    ∃ found, s.aggregate name (Document.probe id) = .ok found
      ∧ (0 < Document.countOf found ↔ s.Has name id) := by
  cases hget : Keyed.get? name s.directories with
  | none =>
    have hempty : ∀ doc ∈ ([] : List Document), doc.Storable := by simp
    obtain ⟨found, hrun, hfound⟩ := Document.run_probe hempty List.nodup_nil hid
    refine ⟨found, ?_, hfound.trans (iff_of_false (by simp) ?_)⟩
    · rw [List.map_nil] at hrun
      simp only [aggregate, open?, hvalid, hget, hrun, Except.mapError]
    · rw [Has, filesOf, hget]
      exact List.not_mem_nil
  | some files =>
    obtain ⟨docs, hdocs, hnodup, hstorable, hids⟩ := (h.files_of_get? hget).all_eq
    obtain ⟨found, hrun, hfound⟩ := Document.run_probe hstorable hnodup hid
    refine ⟨found, ?_, ?_⟩
    · simp only [aggregate, open?, hvalid, hget, hdocs, hrun, Except.mapError]
    · rw [hfound, hids id hid, Keyed.has_iff_mem_keys, Has, filesOf, hget, Option.getD_some]

theorem create_eq (s : Store) (hvalid : Collection.checkName name = .ok ())
    (hshort : name.utf8ByteSize ≤ maxNameBytes) :
    ∃ created : Store, s.create name = .ok (s.filesOf name, created)
      ∧ ∀ files, created.put name files = s.put name files := by
  cases hget : Keyed.get? name s.directories with
  | some files =>
    refine ⟨s, ?_, fun _ => rfl⟩
    simp only [create, hvalid, hget, filesOf, Option.getD_some]
  | none =>
    refine ⟨s.put name [], ?_, fun files => put_put s name [] files⟩
    simp only [create, hvalid, hget, filesOf, Option.getD_none, if_neg (Nat.not_lt.mpr hshort), put]

/-- Documents with new identities are inserted in order. -/
theorem insertAll_eq {files : Collection.Files} {docs : List Document}
    (hnodup : (docs.map Document.id).Nodup)
    (hnew : ∀ doc ∈ docs, Collection.fileName doc.id ∉ Keyed.keys files) :
    insertAll files docs = (.ok (), docs.foldl Collection.write files) := by
  induction docs generalizing files with
  | nil => rfl
  | cons doc rest ih =>
    obtain ⟨hdoc, hrest⟩ := List.forall_mem_cons.mp hnew
    obtain ⟨hother, hnodup⟩ := List.nodup_cons.mp hnodup
    have hinsert : Collection.insert files doc = .ok (Collection.write files doc) := by
      rw [Collection.insert, if_neg (by rwa [Keyed.has_iff_mem_keys])]
    have hkept : ∀ other ∈ rest,
        Collection.fileName other.id ∉ Keyed.keys (Collection.write files doc) := by
      intro other hmem
      rw [Collection.write, Keyed.mem_keys_put]
      rintro (heq | hold)
      · rw [← Collection.fileName_inj heq] at hother
        exact hother (List.mem_map_of_mem hmem)
      · exact hrest other hmem hold
    rw [insertAll, hinsert]
    exact ih hnodup hkept

/-- Documents with new identities are inserted as if they were written one after the other. -/
theorem insertMany_eq (hvalid : Collection.checkName name = .ok ())
    (hshort : name.utf8ByteSize ≤ maxNameBytes) {doc : Document} {docs : List Document}
    (hnodup : ((doc :: docs).map Document.id).Nodup)
    (hnew : ∀ other ∈ doc :: docs, ¬s.Has name other.id) :
    s.insertMany name (doc :: docs) = (.ok (), s.putDocuments name (doc :: docs)) := by
  obtain ⟨created, hcreate, hput⟩ := s.create_eq hvalid hshort
  rw [insertMany, hcreate]
  simp only [insertAll_eq hnodup hnew, hput, put_foldl_write]

/-- A document whose identity is there is replaced. -/
theorem updateById_eq (hvalid : Collection.checkName name = .ok ())
    (hshort : name.utf8ByteSize ≤ maxNameBytes) {doc : Document} (hhas : s.Has name doc.id) :
    s.updateById name doc = (.ok (), s.putDocument name doc) := by
  obtain ⟨created, hcreate, hput⟩ := s.create_eq hvalid hshort
  have hreplace : Collection.replace (s.filesOf name) doc
      = .ok (Collection.write (s.filesOf name) doc) := by
    rw [Collection.replace, if_pos (by rwa [Keyed.has_iff_mem_keys])]
  rw [updateById, hcreate]
  simp only [hreplace, hput, putDocument]

end Store

/-! ## Calls on a backend -/

/-- Whether a backend answers calls of documents from a store, and no calls are made to fail. -/
structure Backend.Serves (b : Backend) (s : Store) : Prop where
  store : b.documents.store = s
  failing : b.documents.failing = []

variable {b : Backend} {s : Store} {name : String}

/-- A call is answered from the store, which is afterwards as the call leaves it. -/
theorem Backend.Serves.ask (h : b.Serves s) (client : String) (call : Call)
    {result : call.Answer} {left : Store} (hcall : s.perform call = (result, left)) :
    ∃ after : Backend, Attempt.runWith (Backend.answer client) (askStore call) b
        = (result.mapError Failure.document, after) ∧ after.Serves left := by
  have hperform : b.documents.perform call
      = (result, ⟨left, [], b.documents.journal ++ [call]⟩) := by
    rw [JournaledStore.perform, h.failing, if_neg (by simp), h.store, hcall]
  refine ⟨{ b with documents := (b.documents.perform call).2 }, ?_, ?_⟩
  · have hrun : Attempt.runWith (Backend.answer client) (askStore call) b
        = ((b.documents.perform call).1.mapError Failure.document,
          { b with documents := (b.documents.perform call).2 }) := rfl
    rw [hrun, hperform]
  · rw [hperform]
    exact ⟨rfl, rfl⟩

namespace Document

theorem saveFrom_cons (name : String) (pending : List Document) (doc : Document)
    (rest : List Document) :
    saveFrom name pending (doc :: rest)
      = askStore (.aggregate name (probe doc.id)) >>= fun found =>
        if 0 < countOf found then
          askStore (.updateById name doc) >>= fun _ => saveFrom name pending rest
        else saveFrom name (putPending doc pending) rest := rfl

/-! ## Documents that wait -/

theorem mem_putPending {doc other : Document} {pending : List Document}
    (h : other ∈ putPending doc pending) : other = doc ∨ other ∈ pending := by
  induction pending with
  | nil => exact .inl (List.mem_singleton.mp h)
  | cons first rest ih =>
    rw [putPending] at h
    split at h
    · exact (List.mem_cons.mp h).imp_right (List.mem_cons_of_mem _)
    · rcases List.mem_cons.mp h with rfl | hmem
      · exact .inr List.mem_cons_self
      · exact (ih hmem).imp_right (List.mem_cons_of_mem _)

theorem nodup_putPending {pending : List Document} (h : (pending.map Document.id).Nodup)
    (doc : Document) : ((putPending doc pending).map Document.id).Nodup := by
  induction pending with
  | nil => simp [putPending]
  | cons first rest ih =>
    obtain ⟨hfirst, hrest⟩ := List.nodup_cons.mp h
    rw [putPending]
    split
    · next heq =>
      rw [List.map_cons, List.nodup_cons, ← heq]
      exact ⟨hfirst, hrest⟩
    · next hne =>
      rw [List.map_cons, List.nodup_cons]
      refine ⟨fun hmem => ?_, ih hrest⟩
      obtain ⟨other, hother, heq⟩ := List.mem_map.mp hmem
      rcases mem_putPending hother with rfl | hmem
      · exact hne heq.symm
      · rw [← heq] at hfirst
        exact hfirst (List.mem_map_of_mem hmem)

/-- What holds of the documents that wait: their identities are different, and none of them has a
file. -/
structure Waiting (s : Store) (name : String) (pending : List Document) : Prop where
  nodup : (pending.map Document.id).Nodup
  fresh : ∀ doc ∈ pending, ¬s.Has name doc.id

namespace Waiting

variable {pending : List Document} {doc : Document}

theorem id_ne (h : Waiting s name pending) (hhas : s.Has name doc.id) :
    ∀ other ∈ pending, other.id ≠ doc.id := by
  intro other hmem heq
  rw [← heq] at hhas
  exact h.fresh other hmem hhas

/-- Nothing changes for them when a document that has a file is replaced. -/
theorem putDocument (h : Waiting s name pending) (hhas : s.Has name doc.id) :
    Waiting (s.putDocument name doc) name pending where
  nodup := h.nodup
  fresh := by
    intro other hmem
    rw [Store.has_putDocument]
    exact not_or.mpr ⟨h.id_ne hhas other hmem, h.fresh other hmem⟩

/-- A document that has no file is gathered with them. -/
theorem putPending (h : Waiting s name pending) (hnew : ¬s.Has name doc.id) :
    Waiting s name (putPending doc pending) where
  nodup := nodup_putPending h.nodup doc
  fresh := by
    intro other hmem
    rcases mem_putPending hmem with rfl | hmem
    · exact hnew
    · exact h.fresh other hmem

/-- Replacing a document at once is the same as writing it behind them. -/
theorem putDocuments_known (h : Waiting s name pending) (hhas : s.Has name doc.id)
    (rest : List Document) :
    (s.putDocument name doc).putDocuments name (pending ++ rest)
      = s.putDocuments name (pending ++ doc :: rest) := by
  rw [Store.putDocuments_append, ← Store.putDocuments_putDocument hhas (h.id_ne hhas),
    Store.putDocuments_append]
  rfl

/-- Gathering a document with them is the same as writing it behind them. -/
theorem putDocuments_new (h : Waiting s name pending) (doc : Document) (rest : List Document) :
    s.putDocuments name (Document.putPending doc pending ++ rest)
      = s.putDocuments name (pending ++ doc :: rest) := by
  rw [Store.putDocuments_append, Store.putDocuments_putPending h.nodup, Store.putDocuments_append]
  rfl

end Waiting

/-- Saving documents behind those that wait is writing them all in order. -/
theorem runWith_saveFrom (client : String) (hvalid : Collection.checkName name = .ok ())
    (hshort : name.utf8ByteSize ≤ Store.maxNameBytes) {pending docs : List Document}
    (hdocs : ∀ doc ∈ docs, doc.Storable) (hpending : Waiting s name pending) (hs : s.Sound)
    (hb : b.Serves s) :
    ∃ after : Backend, Attempt.runWith (Backend.answer client) (saveFrom name pending docs) b
        = (.ok (), after) ∧ after.Serves (s.putDocuments name (pending ++ docs)) := by
  induction docs generalizing pending s b with
  | nil =>
    rw [List.append_nil]
    cases pending with
    | nil => exact ⟨b, rfl, hb⟩
    | cons doc others =>
      exact hb.ask client (.insertMany name (doc :: others))
        (Store.insertMany_eq hvalid hshort hpending.nodup hpending.fresh)
  | cons doc rest ih =>
    obtain ⟨hdoc, hrest⟩ := List.forall_mem_cons.mp hdocs
    obtain ⟨found, hprobe, hfound⟩ := hs.aggregate_probe hvalid hdoc.fits
    obtain ⟨probed, hasked, hprobed⟩ := hb.ask client (.aggregate name (probe doc.id))
      (Prod.ext hprobe rfl)
    rw [saveFrom_cons, Attempt.runWith_bind_of_ok hasked]
    by_cases hhas : s.Has name doc.id
    · -- It is replaced before those that wait are inserted; their identities are others.
      obtain ⟨updated, hupdate, hupdated⟩ := hprobed.ask client (.updateById name doc)
        (Store.updateById_eq hvalid hshort hhas)
      obtain ⟨after, hrun, hafter⟩ :=
        ih hrest (hpending.putDocument hhas) (hs.putDocument name hdoc) hupdated
      rw [if_pos (hfound.mpr hhas), Attempt.runWith_bind_of_ok hupdate]
      rw [hpending.putDocuments_known hhas] at hafter
      exact ⟨after, hrun, hafter⟩
    · -- It is gathered with those that wait, in the place of an earlier one of its identity.
      obtain ⟨after, hrun, hafter⟩ := ih hrest (hpending.putPending hhas) hs hprobed
      rw [if_neg fun hpos => hhas (hfound.mp hpos)]
      rw [hpending.putDocuments_new] at hafter
      exact ⟨after, hrun, hafter⟩

/-- Saving documents to a collection with a valid name is writing them one after the other. -/
theorem runWith_saveDocuments (client : String) (hvalid : Collection.checkName name = .ok ())
    (hshort : name.utf8ByteSize ≤ Store.maxNameBytes) {docs : List Document}
    (hdocs : ∀ doc ∈ docs, doc.Storable) (hs : s.Sound) (hb : b.Serves s) :
    ∃ after : Backend, Attempt.runWith (Backend.answer client) (saveDocuments name docs) b
        = (.ok (), after) ∧ after.Serves (s.putDocuments name docs) :=
  runWith_saveFrom client hvalid hshort hdocs ⟨List.nodup_nil, by simp⟩ hs hb

/-- Saving documents to a collection with an invalid name fails and leaves the store as it is. -/
theorem runWith_saveDocuments_invalid (client : String) {e : NameError}
    (hinvalid : Collection.checkName name = .error e) (doc : Document) (rest : List Document)
    (hb : b.Serves s) :
    ∃ after : Backend, Attempt.runWith (Backend.answer client) (saveDocuments name (doc :: rest)) b
        = (.error (.document (.invalidName e)), after) ∧ after.Serves s := by
  have hprobe : s.aggregate name (probe doc.id) = .error (.invalidName e) := by
    simp only [Store.aggregate, Store.open?, hinvalid]
  obtain ⟨after, hasked, hafter⟩ := hb.ask client (.aggregate name (probe doc.id))
    (Prod.ext hprobe rfl)
  refine ⟨after, ?_, hafter⟩
  rw [saveDocuments, saveFrom_cons, Attempt.runWith_bind, hasked]
  rfl

end Document

end DualStore
