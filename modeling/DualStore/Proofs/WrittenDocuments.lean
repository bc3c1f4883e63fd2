import DualStore.Document.Session
import DualStore.Proofs.ReachedStores

/-!
# Documents written one after the other

The store behind a list of documents whose files are written in order, each over the file that was
there. It only matters which document of an identity comes last, so a document may be written
before or behind others of other identities, and those that wait together may be gathered first.

* `Store.filesOf`: the files of a collection, none if it does not exist;
* `Store.putDocument`, `Store.putDocuments`: documents written in order;
* `putDocument_comm`, `putDocuments_putDocument`, `putDocuments_putPending`: other orders;
* `Document.IsLast`, `Store.Keeps`, `Store.Overwritten`: what stands behind the writes;
* `overwritten_of_filesOf`: it stands in every store with those files.
-/

namespace DualStore

namespace Document

/-- Whether a document is the last of its identity in a list. -/
def IsLast (doc : Document) (docs : List Document) : Prop :=
  ∃ before after, docs = before ++ doc :: after ∧ ∀ other ∈ after, other.id ≠ doc.id

end Document

namespace Store

open Collection (fileName)

/-- The files of a collection; there are none if it does not exist. -/
def filesOf (s : Store) (name : String) : Collection.Files :=
  (Keyed.get? name s.directories).getD []

/-- The store after the file of a document was written. -/
def putDocument (s : Store) (name : String) (doc : Document) : Store :=
  s.put name (Collection.write (s.filesOf name) doc)

/-- The store after the files of documents were written in order. -/
def putDocuments (s : Store) (name : String) (docs : List Document) : Store :=
  docs.foldl (fun s doc => s.putDocument name doc) s

def Has (s : Store) (name : String) (id : Int) : Prop :=
  fileName id ∈ Keyed.keys (s.filesOf name)

variable {s : Store} {name : String} {doc : Document}

theorem filesOf_put_self (s : Store) (name : String) (files : Collection.Files) :
    (s.put name files).filesOf name = files := by
  rw [filesOf, put, Keyed.get?_put_self, Option.getD_some]

theorem filesOf_put_of_ne {other : String} (h : name ≠ other) (s : Store)
    (files : Collection.Files) : (s.put name files).filesOf other = s.filesOf other := by
  rw [filesOf, put, Keyed.get?_put_of_ne h, filesOf]

theorem put_put (s : Store) (name : String) (earlier files : Collection.Files) :
    (s.put name earlier).put name files = s.put name files := by
  rw [put, put, Keyed.put_put, put]

/-- A collection that is created has the files that it had, and other files may be put for it as for
one that was there. -/
theorem create_ok {files : Collection.Files} {created : Store}
    (h : s.create name = .ok (files, created)) :
    files = s.filesOf name ∧ ∀ left, created.put name left = s.put name left := by
  rw [filesOf]
  obtain ⟨-, ⟨hget, rfl⟩ | ⟨hget, -, rfl, rfl⟩⟩ := create_eq_ok_iff.mp h
  · exact ⟨by rw [hget, Option.getD_some], fun _ => rfl⟩
  · exact ⟨by rw [hget, Option.getD_none], fun left => put_put s name [] left⟩

theorem fileText?_eq (s : Store) (name file : String) :
    s.fileText? name file = Keyed.get? file (s.filesOf name) := by
  rw [fileText?, filesOf]
  cases Keyed.get? name s.directories <;> rfl

theorem Holds.filesOf {P : Document → Prop} (h : s.Holds P) (name : String) :
    Collection.Holds P (s.filesOf name) := by
  rw [Store.filesOf]
  cases hget : Keyed.get? name s.directories with
  | none => exact .nil
  | some files => exact h.files_of_get? hget

theorem sound_filesOf (h : s.Sound) (name : String) : Collection.Sound (s.filesOf name) :=
  Collection.sound_iff_holds.mpr (h.holds.filesOf name)

/-! ## Writes in order -/

theorem putDocuments_append (s : Store) (name : String) (docs more : List Document) :
    s.putDocuments name (docs ++ more) = (s.putDocuments name docs).putDocuments name more :=
  List.foldl_append

theorem filesOf_putDocument (s : Store) (name : String) (doc : Document) :
    (s.putDocument name doc).filesOf name = Collection.write (s.filesOf name) doc :=
  filesOf_put_self _ _ _

theorem filesOf_putDocuments (s : Store) (name : String) (docs : List Document) :
    (s.putDocuments name docs).filesOf name = docs.foldl Collection.write (s.filesOf name) := by
  induction docs generalizing s with
  | nil => rfl
  | cons doc rest ih => exact (ih _).trans (by rw [filesOf_putDocument, List.foldl_cons])

theorem filesOf_putDocuments_of_ne {other : String} (h : name ≠ other) (s : Store)
    (docs : List Document) : (s.putDocuments name docs).filesOf other = s.filesOf other := by
  induction docs generalizing s with
  | nil => rfl
  | cons doc rest ih => exact (ih _).trans (filesOf_put_of_ne h _ _)

/-- Documents written in order are written into the files of the collection at once. -/
theorem put_foldl_write (s : Store) (name : String) (doc : Document) (docs : List Document) :
    s.put name ((doc :: docs).foldl Collection.write (s.filesOf name))
      = s.putDocuments name (doc :: docs) := by
  induction docs generalizing s doc with
  | nil => rfl
  | cons next rest ih =>
    have hnext := ih (s.putDocument name doc) next
    rw [filesOf_putDocument, putDocument, put_put] at hnext
    exact hnext

theorem has_putDocument (s : Store) (name : String) (doc : Document) (id : Int) :
    (s.putDocument name doc).Has name id ↔ id = doc.id ∨ s.Has name id := by
  rw [Has, filesOf_putDocument, Collection.write, Keyed.mem_keys_put]
  exact or_congr_left ⟨Collection.fileName_inj, fun h => h ▸ rfl⟩

theorem Sound.putDocument (h : s.Sound) (name : String) (hdoc : doc.Storable) :
    (s.putDocument name doc).Sound :=
  h.put name ((sound_filesOf h name).write hdoc)

theorem Sound.putDocuments (h : s.Sound) (name : String) {docs : List Document}
    (hdocs : ∀ doc ∈ docs, doc.Storable) : (s.putDocuments name docs).Sound := by
  induction docs generalizing s with
  | nil => exact h
  | cons doc rest ih =>
    obtain ⟨hdoc, hrest⟩ := List.forall_mem_cons.mp hdocs
    exact ih (h.putDocument name hdoc) hrest

/-! ## Other orders -/

/-- Of two documents of one identity the later one counts. -/
theorem putDocument_putDocument {earlier : Document} (h : earlier.id = doc.id) :
    (s.putDocument name earlier).putDocument name doc = s.putDocument name doc := by
  rw [putDocument, filesOf_putDocument, putDocument, put_put, Collection.write, Collection.write,
    h, Keyed.put_put, putDocument, Collection.write]

/-- Documents of different identities may be written in either order if one of them replaces a
document that is there. -/
theorem putDocument_comm {other : Document} (hhas : s.Has name doc.id) (hne : other.id ≠ doc.id) :
    (s.putDocument name other).putDocument name doc
      = (s.putDocument name doc).putDocument name other := by
  have hname : fileName other.id ≠ fileName doc.id := fun h => hne (Collection.fileName_inj h)
  have hwrites : Collection.write (Collection.write (s.filesOf name) other) doc
      = Collection.write (Collection.write (s.filesOf name) doc) other :=
    Keyed.put_comm hhas hname _ _
  rw [putDocument, filesOf_putDocument, putDocument, put_put, hwrites]
  rw [putDocument, filesOf_putDocument, putDocument, put_put]

/-- A document that replaces one may be written before others of other identities. -/
theorem putDocuments_putDocument {docs : List Document} (hhas : s.Has name doc.id)
    (hne : ∀ other ∈ docs, other.id ≠ doc.id) :
    (s.putDocuments name docs).putDocument name doc
      = (s.putDocument name doc).putDocuments name docs := by
  induction docs generalizing s with
  | nil => rfl
  | cons other rest ih =>
    obtain ⟨hother, hrest⟩ := List.forall_mem_cons.mp hne
    have hkept : (s.putDocument name other).Has name doc.id :=
      (has_putDocument s name other doc.id).mpr (.inr hhas)
    have hnext := ih hkept hrest
    rw [putDocument_comm hhas hother] at hnext
    exact hnext

/-- Gathering a document with those that wait is writing it behind them. -/
theorem putDocuments_putPending {pending : List Document}
    (hnodup : (pending.map Document.id).Nodup) (s : Store) (name : String) (doc : Document) :
    s.putDocuments name (Document.putPending doc pending)
      = (s.putDocuments name pending).putDocument name doc := by
  induction pending generalizing s with
  | nil => rfl
  | cons other rest ih =>
    obtain ⟨hother, hrest⟩ := List.nodup_cons.mp hnodup
    rw [Document.putPending]
    split
    · next heq =>
      have hne : ∀ d ∈ rest, d.id ≠ doc.id := by
        intro d hd hid
        rw [heq, ← hid] at hother
        exact hother (List.mem_map_of_mem hd)
      have hhas : (s.putDocument name other).Has name doc.id :=
        (has_putDocument s name other doc.id).mpr (.inl heq.symm)
      have hmoved := putDocuments_putDocument hhas hne
      rw [putDocument_putDocument heq] at hmoved
      exact hmoved.symm
    · exact ih hrest _

/-! ## What stands behind the writes -/

/-- Whether the file of a document has its text, which is read as the document with its doubles
read again. -/
structure Keeps (s : Store) (name : String) (doc : Document) : Prop where
  text : s.fileText? name (fileName doc.id) = some doc.toText
  found : ∃ files, s.open? name = .ok (some files) ∧ Collection.get files doc.id = .ok doc.reread

/-- Whether a store differs from an earlier one by documents that were written to its collections:
of those of an identity the last is kept, and every other file is as it was. -/
structure Overwritten (before after : Store) (written : String → List Document) : Prop where
  last : ∀ name doc, doc.IsLast (written name) → after.Keeps name doc
  others : ∀ name file, (∀ doc ∈ written name, file ≠ fileName doc.id) →
    after.fileText? name file = before.fileText? name file

theorem get?_foldl_write_of_ne {files : Collection.Files} {docs : List Document} {file : String}
    (h : ∀ doc ∈ docs, file ≠ fileName doc.id) :
    Keyed.get? file (docs.foldl Collection.write files) = Keyed.get? file files := by
  induction docs generalizing files with
  | nil => rfl
  | cons doc rest ih =>
    obtain ⟨hdoc, hrest⟩ := List.forall_mem_cons.mp h
    rw [List.foldl_cons, ih hrest, Collection.write, Keyed.get?_put_of_ne hdoc.symm]

/-- The file of an identity has the text of the last document. -/
theorem get?_foldl_write_of_isLast {docs : List Document} (h : doc.IsLast docs)
    (files : Collection.Files) :
    Keyed.get? (fileName doc.id) (docs.foldl Collection.write files) = some doc.toText := by
  obtain ⟨before, after, rfl, hafter⟩ := h
  rw [List.foldl_append, List.foldl_cons, get?_foldl_write_of_ne]
  · exact Keyed.get?_put_self _ _ _
  · intro other hother heq
    exact hafter other hother (Collection.fileName_inj heq).symm

/-- What stands behind documents that were written in order to collections with valid names. -/
theorem overwritten_of_filesOf {before after : Store} {written : String → List Document}
    (hfiles : ∀ name, after.filesOf name
      = (written name).foldl Collection.write (before.filesOf name))
    (hnames : ∀ name, written name ≠ [] → Collection.checkName name = .ok ())
    (hstorable : ∀ name, ∀ doc ∈ written name, doc.Storable) :
    Overwritten before after written where
  others := by
    intro name file hfile
    rw [fileText?_eq, fileText?_eq, hfiles, get?_foldl_write_of_ne hfile]
  last := by
    intro name doc hlast
    have htext : Keyed.get? (fileName doc.id) (after.filesOf name) = some doc.toText := by
      rw [hfiles]
      exact get?_foldl_write_of_isLast hlast _
    refine ⟨by rw [fileText?_eq, htext], after.filesOf name, ?_, ?_⟩
    · obtain ⟨first, rest, heq, -⟩ := hlast
      have hvalid := hnames name (by rw [heq]; simp)
      rw [open?, hvalid, filesOf]
      cases hget : Keyed.get? name after.directories with
      | some files => rfl
      | none =>
        rw [filesOf, hget] at htext
        exact absurd htext (by simp [Keyed.get?])
    · have hmem : doc ∈ written name := by
        obtain ⟨first, rest, heq, -⟩ := hlast
        rw [heq]
        exact List.mem_append_right _ List.mem_cons_self
      rw [Collection.get, Collection.read, htext]
      simp only [Document.ofText?_toText (hstorable name doc hmem)]

end Store

end DualStore
