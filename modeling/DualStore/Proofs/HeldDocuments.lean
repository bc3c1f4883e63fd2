import Mathlib.Data.List.Forall2
import DualStore.Document.Store
import DualStore.Proofs.KeyedEntries
import DualStore.Proofs.NumberTexts

/-!
# Documents that a store holds

In a collection that was only written by its own operations every file has the text of a document,
under the name of its identity. What is true of all documents that are written, and is not lost when
a text is read, is true of all documents that the store holds, and of all that are read from it.

* `idOfFile?_fileName`, `fileName_inj`: the names of files and the identities;
* `ids_perm`, `NamedByIds`: the identities in order, and names that can be had back from them;
* `Collection.Holds`: every file is that of a document with a property;
* `insert_eq_ok_iff`, `replace_eq_ok_iff`, `delete_eq_ok_iff`: what a write does;
* `open?_eq_ok_iff`, `create_eq_ok_iff`, `create_eq_error_iff`: what is found under a name;
* `readAll_eq_ok_iff`, `exists_of_mem_readAll`: what is read is the documents in the files;
* `Store.Holds`, `Holds.perform`: all collections, kept by every call.
-/

namespace DualStore

namespace Collection

/-! ## Names of files -/

theorem idOfFile?_fileName {id : Int} (h : Decimal.fitsInt64 id = true) :
    idOfFile? (fileName id) = some id := by
  have hname : (fileName id).toList = Decimal.intChars id ++ ['.', 'j', 's', 'o', 'n'] := by
    rw [fileName, String.toList_append, Decimal.intText, String.toList_ofList]
    rfl
  have hstem : Text.stripSuffix? ['.', 'j', 's', 'o', 'n'] (fileName id).toList
      = some (Decimal.intChars id) := by
    rw [hname, Text.stripSuffix?, List.reverse_append, Text.stripPrefix?_append, Option.map_some,
      List.reverse_reverse]
  rw [idOfFile?, hstem]
  exact Decimal.readInt64?_intChars h

theorem fileName_inj {a b : Int} (h : fileName a = fileName b) : a = b := by
  exact Decimal.intText_inj ((String.append_left_inj _).mp h)

/-! ## Identities in order -/

theorem pairwise_ids (files : Files) : (ids files).Pairwise (· ≤ ·) := by
  refine pairwise_stableSort_of (fun _ _ _ => Int.le_trans) ?_ ?_
  · intro a _ b _ hab
    exact Int.le_of_lt (of_decide_eq_true hab)
  · intro a _ b _ hab
    exact Int.not_lt.mp (of_decide_eq_false hab)

/-- The identities are those that the names give, in the only ascending order. -/
theorem ids_eq_of_perm {files : Files} {ascending : List Int}
    (hperm : (files.filterMap fun file => idOfFile? file.1).Perm ascending)
    (h : ascending.Pairwise (· ≤ ·)) : ids files = ascending :=
  ((stableSort_perm _ _).trans hperm).eq_of_pairwise
    (fun _ _ _ _ => Int.le_antisymm) (pairwise_ids files) h

theorem ids_perm (files : Files) :
    (ids files).Perm ((Keyed.keys files).filterMap idOfFile?) := by
  rw [Keyed.keys, List.filterMap_map]
  exact stableSort_perm _ _

/-- The identities only depend on the names of the files. -/
theorem ids_eq_of_keys {files others : Files} (h : Keyed.keys files = Keyed.keys others) :
    ids files = ids others := by
  refine ids_eq_of_perm ?_ (pairwise_ids others)
  refine (stableSort_perm _ _).symm.trans ((ids_perm files).trans ?_)
  rw [h]
  exact (ids_perm others).symm

theorem mem_ids_iff {files : Files} {id : Int} :
    id ∈ ids files ↔ ∃ name ∈ Keyed.keys files, idOfFile? name = some id := by
  rw [(ids_perm files).mem_iff, List.mem_filterMap]

theorem fitsInt64_of_idOfFile? {name : String} {id : Int} (h : idOfFile? name = some id) :
    Decimal.fitsInt64 id = true := by
  obtain ⟨stem, -, hstem⟩ := Option.bind_eq_some_iff.mp h
  simp only [Decimal.readInt64?] at hstem
  exact (Option.filter_eq_some_iff.mp hstem).2

/-- Whether each name that gives an identity is the one that the identity is written under. -/
def NamedByIds (files : Files) : Prop :=
  ∀ name ∈ Keyed.keys files, ∀ id, idOfFile? name = some id → name = fileName id

instance (files : Files) : Decidable (NamedByIds files) :=
  decidable_of_iff
    (∀ name ∈ Keyed.keys files, (idOfFile? name).all (fun id => name = fileName id) = true)
    (by simp only [NamedByIds, Option.all_eq_true, decide_eq_true_eq])

namespace NamedByIds

variable {files : Files}

theorem mem_ids (h : NamedByIds files) (id : Int) :
    id ∈ ids files ↔ Decimal.fitsInt64 id = true ∧ fileName id ∈ Keyed.keys files := by
  rw [mem_ids_iff]
  constructor
  · rintro ⟨name, hname, hid⟩
    exact ⟨fitsInt64_of_idOfFile? hid, h name hname id hid ▸ hname⟩
  · rintro ⟨hfits, hname⟩
    exact ⟨fileName id, hname, idOfFile?_fileName hfits⟩

/-- No two files give the same identity. -/
theorem nodup_ids (h : NamedByIds files) (distinct : (Keyed.keys files).Nodup) :
    (ids files).Nodup := by
  rw [(ids_perm files).nodup_iff, List.Nodup, List.pairwise_filterMap]
  refine distinct.imp_of_mem ?_
  rintro name other hname hother hne id hid _ hsame rfl
  exact hne ((h name hname id hid).trans (h other hother id hsame).symm)

end NamedByIds

/-! ## Writes -/

variable {files after : Files} {doc : Document}

theorem insert_eq_ok_iff :
    insert files doc = .ok after
      ↔ Keyed.has (fileName doc.id) files = false ∧ after = write files doc := by
  rw [insert]
  split
  · next h => simp [h]
  · next h => simp [h, eq_comm]

theorem replace_eq_ok_iff :
    replace files doc = .ok after
      ↔ Keyed.has (fileName doc.id) files = true ∧ after = write files doc := by
  rw [replace]
  split
  · next h => simp [h, eq_comm]
  · next h => simp [h]

theorem delete_eq_ok_iff {id : Int} :
    delete files id = .ok after
      ↔ Keyed.has (fileName id) files = true ∧ after = Keyed.erase (fileName id) files := by
  rw [delete]
  split
  · next h => simp [h, eq_comm]
  · next h => simp [h]

/-! ## Collections that hold documents -/

/-- Whether every file is that of a document with a property, under the name of its identity. -/
structure Holds (P : Document → Prop) (files : Files) : Prop where
  nodup : (Keyed.keys files).Nodup
  held : ∀ file ∈ files, ∃ doc : Document, P doc ∧ file = (fileName doc.id, doc.toText)

namespace Holds

variable {P : Document → Prop}

theorem nil : Holds P [] := ⟨List.nodup_nil, by simp⟩

theorem write (h : Holds P files) (hdoc : P doc) : Holds P (write files doc) where
  nodup := Keyed.nodup_put h.nodup _ _
  held := by
    intro file hfile
    rcases (Keyed.mem_put h.nodup _ _ file).mp hfile with rfl | ⟨hmem, -⟩
    · exact ⟨doc, hdoc, rfl⟩
    · exact h.held file hmem

theorem erase (h : Holds P files) (name : String) : Holds P (Keyed.erase name files) where
  nodup := h.nodup.sublist ((Keyed.erase_sublist name files).map Prod.fst)
  held := fun file hfile => h.held file ((Keyed.erase_sublist name files).subset hfile)

/-- The document in a file. -/
theorem document_of_get? (h : Holds P files) {id : Int} {text : String}
    (hget : Keyed.get? (fileName id) files = some text) :
    ∃ doc : Document, P doc ∧ doc.id = id ∧ text = doc.toText := by
  obtain ⟨doc, hdoc, heq⟩ := h.held _ ((Keyed.get?_eq_some_iff h.nodup _ _).mp hget)
  obtain ⟨hname, htext⟩ := Prod.mk.inj heq
  exact ⟨doc, hdoc, (fileName_inj hname).symm, htext⟩

theorem namedByIds (h : Holds P files)
    (hfits : ∀ doc, P doc → Decimal.fitsInt64 doc.id = true) : NamedByIds files := by
  intro name hname id hid
  obtain ⟨file, hfile, rfl⟩ := List.mem_map.mp hname
  obtain ⟨doc, hdoc, rfl⟩ := h.held file hfile
  rw [idOfFile?_fileName (hfits doc hdoc)] at hid
  exact congrArg fileName (Option.some.inj hid)

theorem mem_ids (h : Holds P files) (hfits : ∀ doc, P doc → Decimal.fitsInt64 doc.id = true)
    (id : Int) :
    id ∈ ids files ↔ Decimal.fitsInt64 id = true ∧ fileName id ∈ Keyed.keys files :=
  (h.namedByIds hfits).mem_ids id

theorem nodup_ids (h : Holds P files) (hfits : ∀ doc, P doc → Decimal.fitsInt64 doc.id = true) :
    (ids files).Nodup :=
  (h.namedByIds hfits).nodup_ids h.nodup

end Holds

/-! ## Documents that are read -/

theorem read_eq_some_iff {id : Int} :
    read files id = .ok (some doc)
      ↔ (Keyed.get? (fileName id) files).bind Document.ofText? = some doc := by
  rw [read]
  cases hget : Keyed.get? (fileName id) files with
  | none => simp
  | some text => cases hdoc : Document.ofText? text <;> simp [hdoc]

/-- What is read are the documents of the identities that have a file, in their order; no other text
may be in these files. -/
theorem readAll_eq_ok_iff {ids : List Int} {docs : List Document} :
    readAll files ids = .ok docs
      ↔ List.Forall₂ (fun id doc => read files id = .ok (some doc))
        (ids.filter fun id => Keyed.has (fileName id) files) docs := by
  induction ids generalizing docs with
  | nil => simp [readAll, eq_comm]
  | cons id rest ih =>
    cases hget : Keyed.get? (fileName id) files with
    | none =>
      have hnone : read files id = .ok none := by rw [read, hget]
      have hfile : ¬Keyed.has (fileName id) files = true := by simp [Keyed.has_eq_isSome, hget]
      rw [List.filter_cons, if_neg hfile, ← ih, readAll, hnone]
      cases readAll files rest <;> simp
    | some text =>
      have hfile : Keyed.has (fileName id) files = true := by simp [Keyed.has_eq_isSome, hget]
      rw [List.filter_cons, if_pos hfile, List.forall₂_cons_left_iff, readAll]
      cases hread : read files id with
      | error e => simp
      | ok found =>
        cases found with
        | none => simp [read, hget] at hread; split at hread <;> cases hread
        | some doc =>
          cases hrest : readAll files rest with
          | error e => simp [← ih, hrest]
          | ok others =>
            simp only [← ih, hrest, Except.ok.injEq, Option.some.injEq, Option.toList_some,
              List.singleton_append]
            constructor
            · rintro rfl
              exact ⟨doc, others, rfl, rfl, rfl⟩
            · rintro ⟨_, _, rfl, rfl, rfl⟩
              rfl

/-- A document that is read comes from the text in one of the files. -/
theorem exists_of_mem_readAll {ids : List Int} {docs : List Document}
    (hread : readAll files ids = .ok docs) (hdoc : doc ∈ docs) :
    ∃ id ∈ ids, (Keyed.get? (fileName id) files).bind Document.ofText? = some doc := by
  have hread := readAll_eq_ok_iff.mp hread
  obtain ⟨i, hi, rfl⟩ := List.mem_iff_getElem.mp hdoc
  have hid := hread.length_eq ▸ hi
  have hfound := hread.get hid hi
  refine ⟨_, (List.mem_filter.mp (List.getElem_mem hid)).1, read_eq_some_iff.mp hfound⟩

end Collection

namespace Document

/-- Whether a property of documents is not lost when the text of a document is read. -/
def KeptByReading (P : Document → Prop) : Prop :=
  ∀ doc read : Document, P doc → ofText? doc.toText = some read → P read

end Document

namespace Collection

variable {P : Document → Prop} {files : Files} {docs : List Document}

theorem Holds.forall_of_all (h : Holds P files) (hkept : Document.KeptByReading P)
    (hall : all files = .ok docs) : ∀ doc ∈ docs, P doc := by
  intro doc hdoc
  obtain ⟨id, -, hread⟩ := exists_of_mem_readAll hall hdoc
  obtain ⟨text, hget, htext⟩ := Option.bind_eq_some_iff.mp hread
  obtain ⟨stored, hstored, -, rfl⟩ := h.document_of_get? hget
  exact hkept stored doc hstored htext

end Collection

/-! ## Names of collections -/

namespace Store

variable {s created : Store} {name : String} {files : Collection.Files}

theorem open?_eq_ok_iff {found : Option Collection.Files} :
    s.open? name = .ok found
      ↔ Collection.checkName name = .ok () ∧ Keyed.get? name s.directories = found := by
  rw [open?]
  cases Collection.checkName name <;> simp

/-- A collection that is created was there, or it is empty and new. -/
theorem create_eq_ok_iff :
    s.create name = .ok (files, created)
      ↔ Collection.checkName name = .ok ()
        ∧ (Keyed.get? name s.directories = some files ∧ created = s
          ∨ Keyed.get? name s.directories = none ∧ name.utf8ByteSize ≤ maxNameBytes
            ∧ files = [] ∧ created = s.put name []) := by
  rw [create]
  cases Collection.checkName name with
  | error e => simp
  | ok _ =>
    cases Keyed.get? name s.directories with
    | some found => simp [eq_comm]
    | none =>
      dsimp only
      split
      · next hlong => simp [Nat.not_le.mpr hlong]
      · next hshort => simp [Nat.not_lt.mp hshort, put, eq_comm]

/-- A collection is not created if its name is not allowed, or if it is new and has a long name. -/
theorem create_eq_error_iff {e : StoreError} :
    s.create name = .error e
      ↔ (∃ invalid, Collection.checkName name = .error invalid ∧ e = .invalidName invalid)
        ∨ Collection.checkName name = .ok () ∧ Keyed.get? name s.directories = none
          ∧ maxNameBytes < name.utf8ByteSize ∧ e = .io := by
  rw [create]
  cases Collection.checkName name with
  | error invalid => simp [eq_comm]
  | ok _ =>
    cases Keyed.get? name s.directories with
    | some found => simp
    | none =>
      dsimp only
      split
      · next hlong => simp [hlong, eq_comm]
      · next hshort => simp [hshort]

end Store

/-! ## Calls -/

/-- Whether a call only writes documents with a property. -/
def Call.Writes (P : Document → Prop) : Call → Prop
  | .aggregate _ _ => True
  | .insertMany _ docs => ∀ doc ∈ docs, P doc
  | .updateById _ doc => P doc
  | .updateMany _ _ set => ∀ doc, P doc → P (doc.setAll set)
  | .removeMany _ _ => True

namespace Store

variable {P : Document → Prop} {files : Collection.Files}

theorem holds_insertAll (h : Collection.Holds P files) {docs : List Document}
    (hdocs : ∀ doc ∈ docs, P doc) : Collection.Holds P (insertAll files docs).2 := by
  induction docs generalizing files with
  | nil => exact h
  | cons doc rest ih =>
    obtain ⟨hdoc, hrest⟩ := List.forall_mem_cons.mp hdocs
    rw [insertAll]
    split
    · exact h
    · next hinsert =>
      obtain ⟨-, rfl⟩ := Collection.insert_eq_ok_iff.mp hinsert
      exact ih (h.write hdoc) hrest

theorem holds_setAll (h : Collection.Holds P files) {set : Fields}
    (hset : ∀ doc, P doc → P (doc.setAll set)) {docs : List Document}
    (hdocs : ∀ doc ∈ docs, P doc) : Collection.Holds P (setAll files set docs).2 := by
  induction docs generalizing files with
  | nil => exact h
  | cons doc rest ih =>
    obtain ⟨hdoc, hrest⟩ := List.forall_mem_cons.mp hdocs
    rw [setAll]
    split
    · exact ih h hrest
    · next hreplace =>
      obtain ⟨-, rfl⟩ := Collection.replace_eq_ok_iff.mp hreplace
      exact ih (h.write (hset doc hdoc)) hrest

theorem holds_deleteAll (h : Collection.Holds P files) (docs : List Document) :
    Collection.Holds P (deleteAll files docs).2 := by
  induction docs generalizing files with
  | nil => exact h
  | cons doc rest ih =>
    rw [deleteAll]
    split
    · exact ih h
    · next hdelete =>
      obtain ⟨-, rfl⟩ := Collection.delete_eq_ok_iff.mp hdelete
      exact ih (h.erase _)

theorem hits_sublist {filter : Fields} {docs found : List Document}
    (h : hits filter docs = .ok found) : found.Sublist docs := by
  induction docs generalizing found with
  | nil =>
    obtain rfl : [] = found := Except.ok.inj h
    exact .refl []
  | cons doc rest ih =>
    rw [hits] at h
    split at h
    · cases h
    · split at h
      · cases h
      · next others hothers =>
        rw [← Except.ok.inj h]
        split
        · exact (ih hothers).cons_cons doc
        · exact (ih hothers).cons doc

theorem forall_of_matching (h : Collection.Holds P files) (hkept : Document.KeptByReading P)
    {filter : Fields} {docs : List Document} (hmatching : matching files filter = .ok docs) :
    ∀ doc ∈ docs, P doc := by
  rw [matching] at hmatching
  split at hmatching
  · cases hmatching
  · next hall =>
    intro doc hdoc
    exact h.forall_of_all hkept hall doc ((hits_sublist hmatching).subset hdoc)

/-- Whether each directory is there once and all of them hold documents with a property. -/
structure Holds (P : Document → Prop) (s : Store) : Prop where
  nodup : (Keyed.keys s.directories).Nodup
  files : ∀ directory ∈ s.directories, Collection.Holds P directory.2

namespace Holds

variable {s : Store}

theorem empty : Holds P {} := ⟨List.nodup_nil, by simp⟩

theorem files_of_get? (h : s.Holds P) {name : String} {files : Collection.Files}
    (hget : Keyed.get? name s.directories = some files) : Collection.Holds P files :=
  h.files _ ((Keyed.get?_eq_some_iff h.nodup _ _).mp hget)

theorem put (h : s.Holds P) (name : String) (hfiles : Collection.Holds P files) :
    (s.put name files).Holds P where
  nodup := Keyed.nodup_put h.nodup _ _
  files := by
    intro directory hmem
    rcases (Keyed.mem_put h.nodup _ _ directory).mp hmem with rfl | ⟨hmem, -⟩
    · exact hfiles
    · exact h.files directory hmem

theorem of_open? (h : s.Holds P) {name : String} {files : Collection.Files}
    (hopen : s.open? name = .ok (some files)) : Collection.Holds P files :=
  h.files_of_get? (open?_eq_ok_iff.mp hopen).2

theorem create (h : s.Holds P) {name : String} {created : Store}
    (hcreate : s.create name = .ok (files, created)) :
    Collection.Holds P files ∧ created.Holds P := by
  obtain ⟨-, ⟨hget, rfl⟩ | ⟨-, -, rfl, rfl⟩⟩ := create_eq_ok_iff.mp hcreate
  · exact ⟨h.files_of_get? hget, h⟩
  · exact ⟨.nil, h.put name .nil⟩

/-- A change of the documents that satisfy a filter, whatever is done to them. -/
theorem changeMany (h : s.Holds P) (hkept : Document.KeptByReading P) (name : String)
    (filter : Fields) {change : Collection.Files → List Document → Nat × Collection.Files}
    (hchange : ∀ files docs, Collection.Holds P files → (∀ doc ∈ docs, P doc) →
      Collection.Holds P (change files docs).2) :
    (s.changeMany name filter change).2.Holds P := by
  rw [Store.changeMany]
  split
  · exact h
  · exact h
  · next hopen =>
    have hfiles := h.of_open? hopen
    split
    · exact h
    · next hmatching =>
      exact h.put name (hchange _ _ hfiles (forall_of_matching hfiles hkept hmatching))

/-- **A store holds documents with a property after every call that only writes such documents.** -/
theorem perform (h : s.Holds P) (hkept : Document.KeptByReading P) {call : Call}
    (hcall : call.Writes P) : (s.perform call).2.Holds P := by
  cases call with
  | aggregate name stages => exact h
  | insertMany name docs =>
    rw [Store.perform, insertMany]
    split
    · exact h
    · next hcreate =>
      obtain ⟨hfiles, hstore⟩ := h.create hcreate
      exact hstore.put name (holds_insertAll hfiles hcall)
  | updateById name doc =>
    rw [Store.perform, updateById]
    split
    · exact h
    · next hcreate =>
      obtain ⟨hfiles, hstore⟩ := h.create hcreate
      split
      · exact hstore
      · next hreplace =>
        obtain ⟨-, rfl⟩ := Collection.replace_eq_ok_iff.mp hreplace
        exact hstore.put name (hfiles.write hcall)
  | updateMany name filter set =>
    exact h.changeMany hkept name filter fun files docs hfiles hdocs =>
      holds_setAll hfiles hcall hdocs
  | removeMany name filter =>
    exact h.changeMany hkept name filter fun files docs hfiles _ => holds_deleteAll hfiles docs

end Holds

end Store

end DualStore
