import DualStore.Proofs.NestedTexts
import DualStore.Proofs.StoreMaps

/-!
# Obtained stores

The stores that operations make of the empty one, whatever the documents that are written look like.
A value may be nested more deeply than its text can be read; so there may be collections that cannot
be read as a whole. Where one can be read, each document is that of its file.

* `Operation.WellFormed`: the operations that a program can ask for;
* `Store.Obtained`, `Obtained.holds`: the stores that they make, and what is in their files;
* `Holds.read_cases`: what is read under an identity;
* `Collection.Read`: all documents of a collection and their files.
-/

namespace DualStore

/-- Whether a call only writes documents and values that a program can hold. -/
def Call.WellFormed : Call → Prop
  | .aggregate _ _ => True
  | .insertMany _ docs => ∀ doc ∈ docs, doc.WellFormed
  | .updateById _ doc => doc.WellFormed
  | .updateMany _ _ set => ∀ field ∈ set, field.2.IsValue
  | .removeMany _ _ => True

/-- Whether a request only writes a document that a program can hold. -/
def Collection.Request.WellFormed : Collection.Request → Prop
  | .insert doc => doc.WellFormed
  | .replace doc => doc.WellFormed
  | _ => True

/-- Whether an operation only writes documents and values that a program can hold. -/
def Operation.WellFormed : Operation → Prop
  | .call asked => asked.WellFormed
  | .open? _ => True
  | .create _ => True
  | .within _ request => request.WellFormed

namespace Document

theorem wellFormed_keptByReading : KeptByReading WellFormed := by
  intro doc read hdoc hread
  obtain ⟨hstorable, rfl⟩ := storable_of_ofText? hdoc hread
  exact (storable_reread hstorable).wellFormed

end Document

namespace Collection

variable {files : Files}

/-- A request leaves documents with a property behind if it only writes such documents. -/
theorem Holds.perform {P : Document → Prop} (h : Holds P files) {request : Request}
    (hinsert : ∀ doc, request = .insert doc → P doc)
    (hreplace : ∀ doc, request = .replace doc → P doc) :
    Holds P (Collection.perform files request).2 := by
  have hchanged : ∀ result, (∀ after, result = .ok after → Holds P after) →
      Holds P (changed files result).2 := by
    intro result hresult
    cases result with
    | ok after => exact hresult after rfl
    | error e => exact h
  cases request with
  | insert doc =>
    apply hchanged
    intro after hafter
    obtain ⟨-, rfl⟩ := insert_eq_ok_iff.mp hafter
    exact h.write (hinsert doc rfl)
  | replace doc =>
    apply hchanged
    intro after hafter
    obtain ⟨-, rfl⟩ := replace_eq_ok_iff.mp hafter
    exact h.write (hreplace doc rfl)
  | delete id =>
    apply hchanged
    intro after hafter
    obtain ⟨-, rfl⟩ := delete_eq_ok_iff.mp hafter
    exact h.erase _
  | _ => exact h

/-! ## Collections that are read -/

/-- What is read under an identity: nothing, no document that can be read, or the document in the
file with its doubles read again. -/
theorem Holds.read_cases (h : Holds Document.WellFormed files) (id : Int) :
    (Keyed.get? (fileName id) files = none ∧ read files id = .ok none)
      ∨ (∃ stored : Document, stored.id = id
          ∧ Keyed.get? (fileName id) files = some stored.toText ∧ read files id = .error .json)
      ∨ ∃ stored : Document, stored.id = id ∧ stored.Storable
          ∧ Keyed.get? (fileName id) files = some stored.toText
          ∧ read files id = .ok (some stored.reread) := by
  rw [read]
  cases hget : Keyed.get? (fileName id) files with
  | none => exact .inl ⟨rfl, rfl⟩
  | some text =>
    obtain ⟨stored, hstored, rfl, rfl⟩ := h.document_of_get? hget
    cases hread : Document.ofText? stored.toText with
    | none => exact .inr (.inl ⟨stored, rfl, rfl, by simp only [hread]⟩)
    | some doc =>
      obtain ⟨hstorable, rfl⟩ := Document.storable_of_ofText? hstored hread
      exact .inr (.inr ⟨stored, rfl, hstorable, rfl, by simp only [hread]⟩)

/-- Whether documents are those of a collection: each is that of its file, they are there once and
in the order of their identities, and no other identity has a file. -/
structure Read (files : Files) (docs : List Document) : Prop where
  ids : docs.map Document.id = ids files
  nodup : (docs.map Document.id).Nodup
  read : ∀ doc ∈ docs, Collection.read files doc.id = .ok (some doc)
  storable : ∀ doc ∈ docs, doc.Storable

/-- The documents that identities with files are read as. -/
theorem Holds.readAll_read (h : Holds Document.WellFormed files) {ids : List Int}
    {docs : List Document} (hids : ∀ id ∈ ids, fileName id ∈ Keyed.keys files)
    (hread : readAll files ids = .ok docs) :
    docs.map Document.id = ids
      ∧ ∀ doc ∈ docs, Collection.read files doc.id = .ok (some doc) ∧ doc.Storable := by
  induction ids generalizing docs with
  | nil =>
    rw [← Except.ok.inj hread]
    exact ⟨rfl, by simp⟩
  | cons id rest ih =>
    obtain ⟨hid, hrest⟩ := List.forall_mem_cons.mp hids
    rw [readAll] at hread
    rcases h.read_cases id with
      ⟨hnone, -⟩ | ⟨stored, -, -, herror⟩ | ⟨stored, rfl, hstorable, -, hok⟩
    · exact absurd hid ((Keyed.get?_eq_none_iff _ _).mp hnone)
    · rw [herror] at hread
      cases hread
    · simp only [hok] at hread
      cases hothers : readAll files rest with
      | error e => simp [hothers] at hread
      | ok others =>
        simp only [hothers, Except.ok.injEq, Option.toList_some, List.singleton_append] at hread
        subst hread
        obtain ⟨hmap, hall⟩ := ih hrest hothers
        refine ⟨congrArg (stored.id :: ·) hmap, List.forall_mem_cons.mpr ⟨⟨hok, ?_⟩, hall⟩⟩
        exact Document.storable_reread hstorable

/-- A collection that can be read as a whole is read document by document. -/
theorem Holds.read_of_all (h : Holds Document.WellFormed files) {docs : List Document}
    (hall : all files = .ok docs) : Read files docs := by
  have hfits : ∀ doc : Document, doc.WellFormed → Decimal.fitsInt64 doc.id = true :=
    fun _ hdoc => hdoc.fits
  obtain ⟨hids, hdocs⟩ := h.readAll_read (fun id hid => ((h.mem_ids hfits id).mp hid).2) hall
  refine ⟨hids, ?_, fun doc hdoc => (hdocs doc hdoc).1, fun doc hdoc => (hdocs doc hdoc).2⟩
  rw [hids]
  exact h.nodup_ids hfits

/-- Documents that are read one by one are read in order. -/
theorem readAll_map {docs : List Document} {found : Document → Document}
    (h : ∀ doc ∈ docs, read files doc.id = .ok (some (found doc))) :
    readAll files (docs.map Document.id) = .ok (docs.map found) := by
  induction docs with
  | nil => rfl
  | cons doc rest ih =>
    obtain ⟨hdoc, hrest⟩ := List.forall_mem_cons.mp h
    rw [List.map_cons, readAll, hdoc, ih hrest]
    rfl

namespace Read

variable {docs : List Document}

theorem has_fileName (h : Read files docs) {doc : Document} (hdoc : doc ∈ docs) :
    Keyed.has (fileName doc.id) files = true := by
  have hread := h.read doc hdoc
  rw [Collection.read] at hread
  rw [Keyed.has_eq_isSome]
  cases hget : Keyed.get? (fileName doc.id) files with
  | none => simp [hget] at hread
  | some text => rfl

theorem eq_of_id_eq (h : Read files docs) {doc other : Document} (hdoc : doc ∈ docs)
    (hother : other ∈ docs) (hid : doc.id = other.id) : doc = other :=
  List.inj_on_of_nodup_map h.nodup hdoc hother hid

end Read

end Collection

/-! ## Stores -/

namespace Store

/-- The stores that operations make of the empty one, whether they succeed or fail. -/
inductive Obtained : Store → Prop
  | empty : Obtained {}
  | operate {s : Store} (operation : Operation) (h : Obtained s)
      (wellFormed : operation.WellFormed) : Obtained (s.operate operation).2

/-- An operation leaves documents behind that a program can hold. -/
theorem Holds.operate {s : Store} (h : s.Holds Document.WellFormed) {operation : Operation}
    (hoperation : operation.WellFormed) :
    (s.operate operation).2.Holds Document.WellFormed := by
  cases operation with
  | call asked =>
    have hwrites : asked.Writes Document.WellFormed := by
      cases asked with
      | updateMany name filter set =>
        exact fun doc hdoc => Document.hasValues_setAll hdoc hoperation
      | _ => exact hoperation
    exact h.perform Document.wellFormed_keptByReading hwrites
  | open? name => exact h
  | create name =>
    rw [Store.operate]
    split
    · exact h
    · next hcreate => exact (h.create hcreate).2
  | within name request =>
    rw [Store.operate]
    split
    · exact h
    · exact h
    · next hopen =>
      refine h.put name ((h.of_open? hopen).perform ?_ ?_)
      · rintro doc rfl
        exact hoperation
      · rintro doc rfl
        exact hoperation

/-- **In every store that is obtained all files are those of documents.** -/
theorem Obtained.holds {s : Store} (h : s.Obtained) : s.Holds Document.WellFormed := by
  induction h with
  | empty => exact .empty
  | operate operation _ wellFormed ih => exact ih.operate wellFormed

end Store

end DualStore
