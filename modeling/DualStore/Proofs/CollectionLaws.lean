import DualStore.Proofs.CollectionMaps

/-!
# What the files of a collection show

The laws of a collection that stands for a map, said of its files. A document is written through a
temporary file that then gets the name of the document: while it is there it is not listed, and
nothing is read from it.

* `Collection.temporaryName`, `Collection.stage`, `Collection.rename`: the two steps of a write;
* `rename_stage`: together they write the document;
* `Collection.Lawful`, `Represents.lawful`: when the operations fail, and what is listed;
* `exists_of_insertAll`: what documents are inserted before one whose identity is taken.
-/

namespace DualStore

open Decimal (intText)

namespace Collection

/-! ## Temporary files -/

/-- The name of the file through which a process writes a document; every write has its turn. -/
def temporaryName (id : Int) (process turn : Nat) : String :=
  "." ++ intText id ++ "." ++ intText process ++ "." ++ intText turn ++ ".tmp"

/-- The files with the text of a document in its temporary file. -/
def stage (files : Files) (process turn : Nat) (doc : Document) : Files :=
  Keyed.put (temporaryName doc.id process turn) doc.toText files

/-- The files after one of them got another name; a file that had it is gone. -/
def rename (files : Files) (source target : String) : Files :=
  match Keyed.get? source files with
  | none => files
  | some text => Keyed.put target text (Keyed.erase source files)

variable {files : Files}

theorem stripSuffix?_temporaryName (id : Int) (process turn : Nat) :
    Text.stripSuffix? ['.', 'j', 's', 'o', 'n'] (temporaryName id process turn).toList = none := by
  have hending : ∀ cs : List Char,
      Text.stripSuffix? ['.', 'j', 's', 'o', 'n'] (cs ++ ['.', 't', 'm', 'p']) = none := by
    intro cs
    rw [Text.stripSuffix?, List.reverse_append]
    rfl
  rw [temporaryName, String.toList_append]
  exact hending _

/-- The name of a temporary file gives no identity. -/
theorem idOfFile?_temporaryName (id : Int) (process turn : Nat) :
    idOfFile? (temporaryName id process turn) = none := by
  rw [idOfFile?, stripSuffix?_temporaryName, Option.bind_none]

theorem temporaryName_ne_fileName (id other : Int) (process turn : Nat) :
    temporaryName id process turn ≠ fileName other := by
  intro heq
  have hending := stripSuffix?_temporaryName id process turn
  have hname : (fileName other).toList = Decimal.intChars other ++ ['.', 'j', 's', 'o', 'n'] := by
    rw [fileName, String.toList_append, intText, String.toList_ofList]
    rfl
  rw [heq, hname, Text.stripSuffix?, List.reverse_append, Text.stripPrefix?_append] at hending
  cases hending

theorem stage_eq {process turn : Nat} {doc : Document}
    (h : temporaryName doc.id process turn ∉ Keyed.keys files) :
    stage files process turn doc = files ++ [(temporaryName doc.id process turn, doc.toText)] :=
  Keyed.put_of_notMem h _

/-- **A document is written by its temporary file, which gets the name of the document.** -/
theorem rename_stage {process turn : Nat} {doc : Document}
    (h : temporaryName doc.id process turn ∉ Keyed.keys files) :
    rename (stage files process turn doc) (temporaryName doc.id process turn) (fileName doc.id)
      = write files doc := by
  have herase : Keyed.erase (temporaryName doc.id process turn) (stage files process turn doc)
      = files := by
    rw [stage_eq h]
    exact Keyed.erase_append_of_notMem h _
  rw [rename, stage, Keyed.get?_put_self, ← stage, herase, write]

/-- A temporary file is not listed. -/
theorem ids_stage {process turn : Nat} {doc : Document}
    (h : temporaryName doc.id process turn ∉ Keyed.keys files) :
    ids (stage files process turn doc) = ids files := by
  have hnone : [(temporaryName doc.id process turn, doc.toText)].filterMap
      (fun file => idOfFile? file.1) = [] := by
    simp [idOfFile?_temporaryName]
  rw [ids, stage_eq h, List.filterMap_append, hnone, List.append_nil, ids]

theorem read_stage (files : Files) (process turn : Nat) (doc : Document) (id : Int) :
    read (stage files process turn doc) id = read files id := by
  rw [read, stage, Keyed.get?_put_of_ne (temporaryName_ne_fileName doc.id id process turn), read]

theorem readAll_stage (files : Files) (process turn : Nat) (doc : Document) (ids : List Int) :
    readAll (stage files process turn doc) ids = readAll files ids := by
  induction ids with
  | nil => rfl
  | cons id rest ih => rw [readAll, readAll, read_stage, ih]

/-- Nothing is read from a temporary file. -/
theorem all_stage {process turn : Nat} {doc : Document}
    (h : temporaryName doc.id process turn ∉ Keyed.keys files) :
    all (stage files process turn doc) = all files := by
  rw [all, ids_stage h, readAll_stage, all]

/-! ## Laws -/

/-- The laws of a collection whose files stand for a map. -/
structure Lawful (files : Files) : Prop where
  /-- A document cannot be inserted exactly if its identity is there. -/
  insert_iff : ∀ doc, insert files doc = .error (.duplicateId doc.id) ↔ doc.id ∈ ids files
  /-- A document cannot be replaced exactly if its identity is not there. -/
  replace_iff : ∀ doc, replace files doc = .error (.notFound doc.id) ↔ doc.id ∉ ids files
  delete_iff : ∀ id, delete files id = .error (.notFound id) ↔ id ∉ ids files
  get_iff : ∀ id, get files id = .error (.notFound id) ↔ id ∉ ids files
  ascending : (ids files).Pairwise (· < ·)
  /-- All documents are there, one for each identity that is listed. -/
  all_listed : ∃ docs, all files = .ok docs ∧ docs.map Document.id = ids files
  /-- The file of an identity holds a document with this identity and no other. -/
  named : ∀ id text, Keyed.get? (fileName id) files = some text →
    ∃ doc, Document.ofText? text = some doc ∧ doc.id = id
      ∧ Document.idKey ∉ Keyed.keys doc.fields
  /-- There are only files of documents; so no temporary file is left behind. -/
  only_documents : ∀ name ∈ Keyed.keys files, ∃ id ∈ ids files, name = fileName id
  /-- While a document is written nothing else is listed or read than before. -/
  staged : ∀ process turn doc,
    ids (stage files process turn doc) = ids files
      ∧ all (stage files process turn doc) = all files
      ∧ rename (stage files process turn doc) (temporaryName doc.id process turn)
          (fileName doc.id) = write files doc

namespace Represents

variable {m : IdMap}

theorem notMem_temporaryName (h : Represents files m) (id : Int) (process turn : Nat) :
    temporaryName id process turn ∉ Keyed.keys files := by
  intro hmem
  obtain ⟨file, hfile, hname⟩ := List.mem_map.mp hmem
  obtain ⟨doc, -, rfl⟩ := h.mem_iff.mp hfile
  exact temporaryName_ne_fileName id doc.id process turn hname.symm

/-- **The laws hold of every collection that stands for a map.** -/
theorem lawful (h : Represents files m) : Lawful files where
  insert_iff := by
    intro doc
    rw [insert, h.ids_eq]
    split
    · next hhas => exact iff_of_true rfl ((h.has_fileName _).mp hhas)
    · next hhas => exact iff_of_false (by simp) (mt (h.has_fileName _).mpr hhas)
  replace_iff := by
    intro doc
    rw [replace, h.ids_eq]
    split
    · next hhas => exact iff_of_false (by simp) (not_not_intro ((h.has_fileName _).mp hhas))
    · next hhas => exact iff_of_true rfl (mt (h.has_fileName _).mpr hhas)
  delete_iff := by
    intro id
    rw [delete, h.ids_eq]
    split
    · next hhas => exact iff_of_false (by simp) (not_not_intro ((h.has_fileName _).mp hhas))
    · next hhas => exact iff_of_true rfl (mt (h.has_fileName _).mpr hhas)
  get_iff := by
    intro id
    rw [get, h.read_eq, h.ids_eq, ← IdMap.find?_eq_none_iff]
    cases m.find? id <;> simp
  ascending := by
    rw [h.ids_eq, IdMap.ids, List.pairwise_map]
    exact m.ascending
  all_listed := by
    rw [h.ids_eq]
    exact ⟨m.documents, h.all_eq, rfl⟩
  named := by
    intro id text hget
    rw [h.get?_fileName, Option.map_eq_some_iff] at hget
    obtain ⟨fields, hfields, rfl⟩ := hget
    have hdoc := h.faithful _ (IdMap.find?_eq_some_iff.mp hfields)
    exact ⟨_, hdoc.ofText?, rfl, hdoc.storable.notIdKey⟩
  only_documents := by
    intro name hname
    obtain ⟨file, hfile, rfl⟩ := List.mem_map.mp hname
    obtain ⟨doc, hdoc, rfl⟩ := h.mem_iff.mp hfile
    rw [h.ids_eq]
    exact ⟨doc.id, List.mem_map_of_mem hdoc, rfl⟩
  staged := by
    intro process turn doc
    have hnew := h.notMem_temporaryName doc.id process turn
    exact ⟨ids_stage hnew, all_stage hnew, rename_stage hnew⟩

end Represents

end Collection

/-! ## Documents before one whose identity is taken -/

namespace Store

open Collection (Represents ids)

variable {files : Collection.Files} {m : IdMap}

/-- If documents cannot all be inserted, then exactly those are inserted that stand before the
first whose identity is taken. -/
theorem exists_of_insertAll (h : Represents files m) {docs : List Document}
    (hdocs : ∀ doc ∈ docs, doc.Faithful) {e : StoreError}
    (herror : (insertAll files docs).1 = .error e) :
    ∃ before doc rest, docs = before ++ doc :: rest ∧ e = .duplicateId doc.id
      ∧ insertAll files before = (.ok (), (insertAll files docs).2)
      ∧ (before.map Document.id).Nodup ∧ (∀ other ∈ before, other.id ∉ ids files)
      ∧ (doc.id ∈ ids files ∨ doc.id ∈ before.map Document.id) := by
  induction docs generalizing files m with
  | nil => cases herror
  | cons first rest ih =>
    obtain ⟨hfirst, hrest⟩ := List.forall_mem_cons.mp hdocs
    rw [insertAll] at herror
    by_cases hmem : first.id ∈ m.ids
    · have hinsert := (h.lawful.insert_iff first).mpr (h.ids_eq ▸ hmem)
      rw [hinsert] at herror
      refine ⟨[], first, rest, rfl, (Except.error.inj herror).symm, ?_, .nil, by simp, ?_⟩
      · rw [insertAll, insertAll, hinsert]
      · rw [h.ids_eq]
        exact .inl hmem
    · have hinsert : Collection.insert files first = .ok (Collection.write files first) := by
        rw [Collection.insert, if_neg (mt (h.has_fileName _).mp hmem)]
      have hafter := h.write hfirst
      rw [hinsert] at herror
      obtain ⟨before, doc, behind, rfl, rfl, hbefore, hnodup, hnew, htaken⟩ :=
        ih hafter hrest herror
      have hids : ∀ id, id ∈ ids (Collection.write files first)
          ↔ id = first.id ∨ id ∈ ids files := by
        intro id
        rw [hafter.ids_eq, h.ids_eq, IdMap.mem_ids_put]
      refine ⟨first :: before, doc, behind, rfl, rfl, ?_, ?_, ?_, ?_⟩
      · rw [insertAll, insertAll, hinsert]
        exact hbefore
      · apply List.nodup_cons.mpr ⟨_, hnodup⟩
        intro hsame
        obtain ⟨other, hother, heq⟩ := List.mem_map.mp hsame
        exact hnew other hother ((hids _).mpr (.inl heq))
      · intro other hother
        rcases List.mem_cons.mp hother with rfl | hother
        · rwa [h.ids_eq]
        · exact fun hid => hnew other hother ((hids _).mpr (.inr hid))
      · rcases htaken with hid | hid
        · rcases (hids _).mp hid with heq | hid
          · exact .inr (heq ▸ List.mem_cons_self)
          · exact .inl hid
        · exact .inr (List.mem_cons_of_mem _ hid)

end Store

end DualStore
