import DualStore.Proofs.IdMaps
import DualStore.Proofs.ReachedStores

/-!
# Collections as maps

The files of a collection stand for a map from identities to fields: for each document of the map
there is the file that is named by its identity and has its text, and there is no other file. What
the operations on the files answer is what the same operations on the map answer, and the files
stand for the map behind the operation.

* `Document.Faithful`: the documents whose texts are read as the documents themselves;
* `Collection.Represents`: the files of a map;
* `read_eq`, `ids_eq`, `all_eq`, `write`, `erase`: reading and writing files of a map;
* `Collection.Request`, `Collection.perform`, `IdMap.perform`: the operations of a handle;
* `Represents.perform`, `insertAll_eq_insertMany`, `setAll_eq_putAll`, `deleteAll_eq_eraseAll`: they
  agree.
-/

namespace DualStore

/-! ## Documents that are read as they are -/

/-- Whether the text of a value is read as the value itself. -/
structure Json.Faithful (v : Json) : Prop where
  readable : isReadable Document.fieldLevels v = true
  same : v.reread = v

namespace Document

/-- Whether the text of a document is read as the document itself. -/
structure Faithful (d : Document) : Prop where
  storable : d.Storable
  same : ∀ field ∈ d.fields, field.2.reread = field.2

variable {d : Document}

theorem Faithful.reread (h : d.Faithful) : d.reread = d := by
  rw [Document.reread, Json.rereadFields_eq_map]
  have hsame : ∀ field ∈ d.fields, (field.1, field.2.reread) = field := by
    intro field hfield
    rw [h.same field hfield]
  rw [List.map_congr_left hsame, List.map_id']

theorem Faithful.ofText? (h : d.Faithful) : ofText? d.toText = some d := by
  rw [ofText?_toText h.storable, h.reread]

/-- A document without doubles whose text can be read. -/
theorem faithful_of_isExact (h : d.Storable)
    (hexact : ∀ field ∈ d.fields, Json.isExact fieldLevels field.2 = true) : d.Faithful :=
  ⟨h, fun field hfield => Json.reread_of_isExact (hexact field hfield)⟩

theorem faithful_iff_hasValues : d.Faithful ↔ d.HasValues Json.Faithful := by
  constructor
  · intro h
    exact ⟨h.storable.fits, h.storable.nodup, h.storable.notIdKey, fun field hfield =>
      ⟨h.storable.readable field hfield, h.same field hfield⟩⟩
  · intro h
    exact ⟨⟨h.fits, h.nodup, h.notIdKey, fun field hfield => (h.values field hfield).readable⟩,
      fun field hfield => (h.values field hfield).same⟩

theorem faithful_setAll (h : d.Faithful) {set : Fields}
    (hset : ∀ field ∈ set, field.2.Faithful) : (d.setAll set).Faithful :=
  faithful_iff_hasValues.mpr (hasValues_setAll (faithful_iff_hasValues.mp h) hset)

theorem id_set (d : Document) (key : String) (value : Json) : (d.set key value).id = d.id := by
  rw [set]
  split <;> rfl

theorem id_setAll (d : Document) (set : Fields) : (d.setAll set).id = d.id := by
  induction set generalizing d with
  | nil => rfl
  | cons field rest ih => rw [setAll, ih, id_set]

end Document

namespace Collection

/-- Whether the files are those of the documents of a map, in whatever order. -/
structure Represents (files : Files) (m : IdMap) : Prop where
  perm : files.Perm (m.documents.map fun doc => (fileName doc.id, doc.toText))
  faithful : ∀ doc ∈ m.documents, doc.Faithful

theorem represents_empty : Represents [] .empty := ⟨.nil, by simp [IdMap.empty]⟩

namespace Represents

variable {files : Files} {m : IdMap}

theorem mem_iff (h : Represents files m) {file : String × String} :
    file ∈ files ↔ ∃ doc ∈ m.documents, (fileName doc.id, doc.toText) = file := by
  rw [h.perm.mem_iff, List.mem_map]

theorem nodup (h : Represents files m) : (Keyed.keys files).Nodup := by
  have hnames : (m.ids.map fileName).Nodup := m.nodup_ids.map fun a b => fileName_inj
  rw [Keyed.keys, (h.perm.map Prod.fst).nodup_iff, List.map_map]
  rwa [IdMap.ids, List.map_map] at hnames

/-- Files are those of a map if they are so one by one. -/
theorem of_mem_iff (hnodup : (Keyed.keys files).Nodup)
    (hmem : ∀ file, file ∈ files ↔ ∃ doc ∈ m.documents, (fileName doc.id, doc.toText) = file)
    (hfaithful : ∀ doc ∈ m.documents, doc.Faithful) : Represents files m where
  perm := by
    have hdocs : (m.documents.map fun doc => (fileName doc.id, doc.toText)).Nodup := by
      apply m.nodup_documents.map_on
      intro a ha b hb heq
      exact IdMap.eq_of_id_eq ha hb (fileName_inj (Prod.mk.inj heq).1)
    rw [List.perm_ext_iff_of_nodup (hnodup.of_map Prod.fst) hdocs]
    intro file
    rw [hmem, List.mem_map]
  faithful := hfaithful

/-! ## Reading -/

/-- **The file of an identity has the text of its document.** -/
theorem get?_fileName (h : Represents files m) (id : Int) :
    Keyed.get? (fileName id) files
      = (m.find? id).map fun fields => (⟨id, fields⟩ : Document).toText := by
  apply Option.ext
  intro text
  rw [Keyed.get?_eq_some_iff h.nodup, h.mem_iff, Option.map_eq_some_iff]
  constructor
  · rintro ⟨doc, hdoc, heq⟩
    obtain ⟨hname, rfl⟩ := Prod.mk.inj heq
    obtain rfl := fileName_inj hname
    exact ⟨doc.fields, IdMap.mem_documents_iff.mp hdoc, rfl⟩
  · rintro ⟨fields, hfields, rfl⟩
    exact ⟨_, IdMap.find?_eq_some_iff.mp hfields, rfl⟩

theorem has_fileName (h : Represents files m) (id : Int) :
    Keyed.has (fileName id) files = true ↔ id ∈ m.ids := by
  rw [Keyed.has_eq_isSome, h.get?_fileName, Option.isSome_map, IdMap.mem_ids_iff]

theorem read_eq (h : Represents files m) (id : Int) :
    read files id = .ok ((m.find? id).map (Document.mk id)) := by
  rw [read, h.get?_fileName]
  cases hfind : m.find? id with
  | none => rfl
  | some fields =>
    have hdoc := h.faithful _ (IdMap.find?_eq_some_iff.mp hfind)
    simp only [Option.map_some, hdoc.ofText?]

/-- **The identities that the names of the files give are those of the map, in their order.** -/
theorem ids_eq (h : Represents files m) : ids files = m.ids := by
  have hnames : (m.documents.map fun doc => (fileName doc.id, doc.toText)).filterMap
      (fun file => idOfFile? file.1) = m.ids := by
    rw [List.filterMap_map, IdMap.ids, ← List.filterMap_eq_map]
    apply List.filterMap_congr
    intro doc hdoc
    exact idOfFile?_fileName (h.faithful doc hdoc).storable.fits
  apply ids_eq_of_perm
  · rw [← hnames]
    exact h.perm.filterMap _
  · rw [IdMap.ids, List.pairwise_map]
    exact m.ascending.imp fun hlt => Int.le_of_lt hlt

/-- All documents are those of the map, in their order. -/
theorem all_eq (h : Represents files m) : all files = .ok m.documents := by
  have hread : ∀ docs : List Document, (∀ doc ∈ docs, doc ∈ m.documents) →
      readAll files (docs.map Document.id) = .ok docs := by
    intro docs hdocs
    induction docs with
    | nil => rfl
    | cons doc rest ih =>
      obtain ⟨hdoc, hrest⟩ := List.forall_mem_cons.mp hdocs
      have hfind := IdMap.mem_documents_iff.mp hdoc
      rw [List.map_cons, readAll, h.read_eq, hfind, ih hrest]
      rfl
  rw [all, h.ids_eq]
  exact hread m.documents fun doc hdoc => hdoc

/-! ## Writing -/

theorem write (h : Represents files m) {doc : Document} (hdoc : doc.Faithful) :
    Represents (write files doc) (m.put doc) := by
  apply of_mem_iff (Keyed.nodup_put h.nodup _ _)
  · intro file
    rw [Keyed.mem_put h.nodup, h.mem_iff]
    constructor
    · rintro (rfl | ⟨⟨other, hother, rfl⟩, hname⟩)
      · exact ⟨doc, IdMap.mem_put.mpr (.inl rfl), rfl⟩
      · exact ⟨other, IdMap.mem_put.mpr (.inr ⟨hother, fun hid => hname (congrArg fileName hid)⟩),
          rfl⟩
    · rintro ⟨other, hother, rfl⟩
      rcases IdMap.mem_put.mp hother with rfl | ⟨hother, hid⟩
      · exact .inl rfl
      · exact .inr ⟨⟨other, hother, rfl⟩, fun hname => hid (fileName_inj hname)⟩
  · intro other hother
    rcases IdMap.mem_put.mp hother with rfl | ⟨hother, -⟩
    · exact hdoc
    · exact h.faithful other hother

theorem erase (h : Represents files m) (id : Int) :
    Represents (Keyed.erase (fileName id) files) (m.erase id) := by
  have hmem : ∀ file, file ∈ Keyed.erase (fileName id) files
      ↔ file ∈ files ∧ file.1 ≠ fileName id := by
    intro file
    rw [Keyed.erase_eq_filter h.nodup, List.mem_filter, decide_eq_true_iff]
  apply of_mem_iff
  · exact h.nodup.sublist ((Keyed.erase_sublist _ files).map Prod.fst)
  · intro file
    rw [hmem, h.mem_iff]
    constructor
    · rintro ⟨⟨doc, hdoc, rfl⟩, hname⟩
      exact ⟨doc, IdMap.mem_erase.mpr ⟨hdoc, fun hid => hname (congrArg fileName hid)⟩, rfl⟩
    · rintro ⟨doc, hdoc, rfl⟩
      obtain ⟨hdoc, hid⟩ := IdMap.mem_erase.mp hdoc
      exact ⟨⟨doc, hdoc, rfl⟩, fun hname => hid (fileName_inj hname)⟩
  · intro doc hdoc
    exact h.faithful doc (IdMap.mem_erase.mp hdoc).1

end Represents

/-! ## The operations of a handle -/

/-- What a handle of a collection is asked for. -/
inductive Request where
  | insert (doc : Document)
  | replace (doc : Document)
  | delete (id : Int)
  | get (id : Int)
  | read (id : Int)
  | ids
  | all

def Request.Result : Request → Type
  | .insert _ => Unit
  | .replace _ => Unit
  | .delete _ => Unit
  | .get _ => Document
  | .read _ => Option Document
  | .ids => List Int
  | .all => List Document

abbrev Request.Answer (request : Request) : Type := Except StoreError request.Result

/-- Whether the text of the document that is written is read as the document itself. -/
def Request.Faithful : Request → Prop
  | .insert doc => doc.Faithful
  | .replace doc => doc.Faithful
  | _ => True

/-- The files after a change that may have failed, and whether it did. -/
def changed (files : Files) : Except StoreError Files → Except StoreError Unit × Files
  | .ok after => (.ok (), after)
  | .error e => (.error e, files)

/-- The answer of a collection, and its files afterwards. -/
def perform (files : Files) : (request : Request) → request.Answer × Files
  | .insert doc => changed files (insert files doc)
  | .replace doc => changed files (replace files doc)
  | .delete id => changed files (delete files id)
  | .get id => (get files id, files)
  | .read id => (read files id, files)
  | .ids => (.ok (ids files), files)
  | .all => (all files, files)

end Collection

def IdMap.perform (m : IdMap) : (request : Collection.Request) → request.Answer × IdMap
  | .insert doc => if doc.id ∈ m.ids then (.error (.duplicateId doc.id), m) else (.ok (), m.put doc)
  | .replace doc => if doc.id ∈ m.ids then (.ok (), m.put doc) else (.error (.notFound doc.id), m)
  | .delete id => if id ∈ m.ids then (.ok (), m.erase id) else (.error (.notFound id), m)
  | .get id =>
    match m.find? id with
    | some fields => (.ok ⟨id, fields⟩, m)
    | none => (.error (.notFound id), m)
  | .read id => (.ok ((m.find? id).map (Document.mk id)), m)
  | .ids => (.ok m.ids, m)
  | .all => (.ok m.documents, m)

/-- The map after documents were inserted up to the first whose identity is taken. -/
def IdMap.insertMany (m : IdMap) (docs : List Document) : Except StoreError Unit × IdMap :=
  let new := IdMap.newOnes m.ids docs
  match (docs.drop new.length).head? with
  | none => (.ok (), m.putAll new)
  | some doc => (.error (.duplicateId doc.id), m.putAll new)

namespace Collection.Represents

variable {files : Files} {m : IdMap}

/-- **A collection answers a request as its map does, and stands for the map behind it.** -/
theorem perform (h : Represents files m) {request : Request} (hrequest : request.Faithful) :
    (Collection.perform files request).1 = (m.perform request).1
      ∧ Represents (Collection.perform files request).2 (m.perform request).2 := by
  cases request with
  | insert doc =>
    simp only [Collection.perform, insert, IdMap.perform, h.has_fileName]
    split
    · exact ⟨rfl, h⟩
    · exact ⟨rfl, h.write hrequest⟩
  | replace doc =>
    simp only [Collection.perform, replace, IdMap.perform, h.has_fileName]
    split
    · exact ⟨rfl, h.write hrequest⟩
    · exact ⟨rfl, h⟩
  | delete id =>
    simp only [Collection.perform, delete, IdMap.perform, h.has_fileName]
    split
    · exact ⟨rfl, h.erase id⟩
    · exact ⟨rfl, h⟩
  | get id =>
    simp only [Collection.perform, get, IdMap.perform, h.read_eq]
    cases m.find? id with
    | none => exact ⟨rfl, h⟩
    | some fields => exact ⟨rfl, h⟩
  | read id =>
    rw [Collection.perform, h.read_eq]
    exact ⟨rfl, h⟩
  | ids =>
    rw [Collection.perform, h.ids_eq]
    exact ⟨rfl, h⟩
  | all =>
    rw [Collection.perform, h.all_eq]
    exact ⟨rfl, h⟩

end Collection.Represents

/-! ## Several documents -/

namespace IdMap

/-- Which documents are new only depends on the set of the identities that are taken. -/
theorem newOnes_congr {taken others : List Int} (h : ∀ id, id ∈ taken ↔ id ∈ others)
    (docs : List Document) : newOnes taken docs = newOnes others docs := by
  induction docs generalizing taken others with
  | nil => rfl
  | cons doc rest ih =>
    have hcons : ∀ id, id ∈ doc.id :: taken ↔ id ∈ doc.id :: others := by
      intro id
      rw [List.mem_cons, List.mem_cons, h]
    rw [newOnes, newOnes, ih hcons]
    simp only [h]

theorem insertMany_of_mem {m : IdMap} {doc : Document} (h : doc.id ∈ m.ids)
    (rest : List Document) : m.insertMany (doc :: rest) = (.error (.duplicateId doc.id), m) := by
  rw [insertMany, newOnes, if_pos h]
  rfl

theorem insertMany_of_notMem {m : IdMap} {doc : Document} (h : doc.id ∉ m.ids)
    (rest : List Document) : m.insertMany (doc :: rest) = (m.put doc).insertMany rest := by
  have htaken : ∀ id, id ∈ doc.id :: m.ids ↔ id ∈ (m.put doc).ids := by
    intro id
    rw [List.mem_cons, mem_ids_put]
  have hnew : newOnes m.ids (doc :: rest) = doc :: newOnes (m.put doc).ids rest := by
    rw [newOnes, if_neg h, newOnes_congr htaken]
  rw [insertMany, hnew]
  rfl

end IdMap

namespace Store

open Collection (Files Represents fileName)

variable {files : Files} {m : IdMap}

theorem insertAll_eq_insertMany (h : Represents files m) {docs : List Document}
    (hdocs : ∀ doc ∈ docs, doc.Faithful) :
    (insertAll files docs).1 = (m.insertMany docs).1
      ∧ Represents (insertAll files docs).2 (m.insertMany docs).2 := by
  induction docs generalizing files m with
  | nil => exact ⟨rfl, h⟩
  | cons doc rest ih =>
    obtain ⟨hdoc, hrest⟩ := List.forall_mem_cons.mp hdocs
    by_cases hmem : doc.id ∈ m.ids
    · rw [insertAll, Collection.insert, if_pos ((h.has_fileName _).mpr hmem),
        IdMap.insertMany_of_mem hmem]
      exact ⟨rfl, h⟩
    · rw [insertAll, Collection.insert, if_neg (mt (h.has_fileName _).mp hmem),
        IdMap.insertMany_of_notMem hmem]
      exact ih (h.write hdoc) hrest

/-- Fields are set in all documents that are there. -/
theorem setAll_eq_putAll (h : Represents files m) {set : Fields}
    (hset : ∀ field ∈ set, field.2.Faithful) {docs : List Document}
    (hdocs : ∀ doc ∈ docs, doc.Faithful ∧ doc.id ∈ m.ids) :
    (setAll files set docs).1 = docs.length
      ∧ Represents (setAll files set docs).2 (m.putAll (docs.map fun doc => doc.setAll set)) := by
  induction docs generalizing files m with
  | nil => exact ⟨rfl, h⟩
  | cons doc rest ih =>
    obtain ⟨⟨hdoc, hmem⟩, hrest⟩ := List.forall_mem_cons.mp hdocs
    have hid : (doc.setAll set).id ∈ m.ids := by rwa [Document.id_setAll]
    have hothers : ∀ other ∈ rest, other.Faithful ∧ other.id ∈ (m.put (doc.setAll set)).ids := by
      intro other hother
      exact ⟨(hrest other hother).1, IdMap.mem_ids_put.mpr (.inr (hrest other hother).2)⟩
    obtain ⟨hcount, hafter⟩ := ih (h.write (Document.faithful_setAll hdoc hset)) hothers
    rw [setAll, Collection.replace, if_pos ((h.has_fileName _).mpr hid)]
    exact ⟨congrArg (· + 1) hcount, hafter⟩

/-- All documents that are there are taken out. -/
theorem deleteAll_eq_eraseAll (h : Represents files m) {docs : List Document}
    (hnodup : (docs.map Document.id).Nodup) (hdocs : ∀ doc ∈ docs, doc.id ∈ m.ids) :
    (deleteAll files docs).1 = docs.length
      ∧ Represents (deleteAll files docs).2 (m.eraseAll (docs.map Document.id)) := by
  induction docs generalizing files m with
  | nil => exact ⟨rfl, h⟩
  | cons doc rest ih =>
    obtain ⟨hdoc, hrest⟩ := List.forall_mem_cons.mp hdocs
    obtain ⟨hnew, hothers⟩ := List.nodup_cons.mp hnodup
    have hleft : ∀ other ∈ rest, other.id ∈ (m.erase doc.id).ids := by
      intro other hother
      apply IdMap.mem_ids_erase.mpr ⟨hrest other hother, _⟩
      intro hid
      exact hnew (hid ▸ List.mem_map_of_mem hother)
    obtain ⟨hcount, hafter⟩ := ih (h.erase doc.id) hothers hleft
    rw [deleteAll, Collection.delete, if_pos ((h.has_fileName _).mpr hdoc)]
    exact ⟨congrArg (· + 1) hcount, hafter⟩

end Store

end DualStore
