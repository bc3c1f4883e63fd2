import DualStore.Proofs.ObtainedStores

/-!
# Bulk writes

A filter is evaluated on every document of a collection before the first of them is written.
Setting fields then writes the files of exactly the documents that the filter accepts, and removing
takes out exactly those files; if the filter fails on one document, nothing is written.

* `Document.get?_setAll`, `Document.Updated`: what setting fields does to a document;
* `Document.accepts`, `Collection.Examined`: the documents that a filter accepts;
* `setAll_eq`, `deleteAll_eq`: the files behind a bulk write, and how many documents it counts;
* `changeMany_eq_ok`, `changeMany_error`: a bulk write that succeeds, and one that fails;
* `Store.UpdatedIn`, `Store.RemovedFrom`: what a bulk write does to the documents that it finds;
* `bulk_writes`: bulk writes in the stores that operations make.
-/

namespace DualStore

namespace Document

variable {d : Document}

theorem get?_set_self {key : String} (h : key ≠ idKey) (d : Document) (value : Json) :
    (d.set key value).get? key = some value := by
  rw [set, if_neg h, get?]
  exact Keyed.get?_put_self key value d.fields

theorem get?_set_of_ne {key other : String} (h : key ≠ other) (d : Document) (value : Json) :
    (d.set key value).get? other = d.get? other := by
  rw [set]
  split
  · rfl
  · exact Keyed.get?_put_of_ne h value d.fields

/-- Fields that are not named are kept. -/
theorem get?_setAll_of_notMem {set : Fields} {key : String} (h : key ∉ Keyed.keys set)
    (d : Document) : (d.setAll set).get? key = d.get? key := by
  induction set generalizing d with
  | nil => rfl
  | cons field rest ih =>
    rw [Keyed.keys, List.map_cons, List.mem_cons, not_or] at h
    rw [setAll, ih h.2, get?_set_of_ne (Ne.symm h.1)]

/-- A field that is named once has the value that is given. -/
theorem get?_setAll_of_mem {set : Fields} (hset : (Keyed.keys set).Nodup) {key : String}
    {value : Json} (h : (key, value) ∈ set) (hkey : key ≠ idKey) (d : Document) :
    (d.setAll set).get? key = some value := by
  induction set generalizing d with
  | nil => exact absurd h List.not_mem_nil
  | cons field rest ih =>
    obtain ⟨hfirst, hrest⟩ := List.nodup_cons.mp hset
    rcases List.mem_cons.mp h with rfl | hmem
    · rw [setAll, get?_setAll_of_notMem hfirst, get?_set_self hkey]
    · exact ih hrest hmem _

/-- Whether a document is another one in which fields were set: the identity is the same, every
given field but the identity has its new value, and all other fields are kept. -/
structure Updated (set : Fields) (d after : Document) : Prop where
  id : after.id = d.id
  overwritten : ∀ key value, (key, value) ∈ set → key ≠ idKey → after.get? key = some value
  kept : ∀ key, key ∉ Keyed.keys set → after.get? key = d.get? key

theorem updated_setAll {set : Fields} (hset : (Keyed.keys set).Nodup) (d : Document) :
    Updated set d (d.setAll set) :=
  ⟨id_setAll d set, fun _ _ hmem hkey => get?_setAll_of_mem hset hmem hkey d,
    fun _ hkey => get?_setAll_of_notMem hkey d⟩

/-- Whether a filter can be evaluated on a document and the document satisfies it. -/
def accepts (filter : Fields) (d : Document) : Bool :=
  match satisfies d.toJson filter with
  | .ok hit => hit
  | .error _ => false

theorem accepts_of_satisfies {filter : Fields} {hit : Bool}
    (h : satisfies d.toJson filter = .ok hit) : d.accepts filter = hit := by
  rw [accepts, h]

end Document

namespace Collection

/-- Whether all documents of a collection can be read, and a filter can be evaluated on each. -/
structure Examined (files : Files) (filter : Fields) (docs : List Document) : Prop where
  all : Collection.all files = .ok docs
  evaluated : ∀ doc ∈ docs, ∃ hit, Document.satisfies doc.toJson filter = .ok hit

end Collection

namespace Store

open Collection (Files Examined fileName)

variable {filter set : Fields} {docs found : List Document} {files : Files}

/-! ## What is found -/

/-- The documents that satisfy a filter are found if it can be evaluated on all. -/
theorem hits_eq_ok_iff :
    hits filter docs = .ok found
      ↔ (∀ doc ∈ docs, ∃ hit, Document.satisfies doc.toJson filter = .ok hit)
        ∧ found = docs.filter (Document.accepts filter) := by
  induction docs generalizing found with
  | nil => simp [hits, eq_comm]
  | cons doc rest ih =>
    rw [hits, List.forall_mem_cons]
    cases hdoc : Document.satisfies doc.toJson filter with
    | error e => simp
    | ok hit =>
      have haccepts := Document.accepts_of_satisfies hdoc
      rw [List.filter_cons, haccepts]
      cases hrest : hits filter rest with
      | error e =>
        have hnone : ∀ others, ¬ hits filter rest = .ok others := by simp [hrest]
        constructor
        · intro h
          cases h
        · rintro ⟨⟨-, hevaluated⟩, -⟩
          exact absurd (ih.mpr ⟨hevaluated, rfl⟩) (hnone _)
      | ok others =>
        obtain ⟨hevaluated, rfl⟩ := ih.mp hrest
        simp only [Except.ok.injEq]
        exact ⟨fun h => ⟨⟨⟨hit, rfl⟩, hevaluated⟩, h.symm⟩, fun h => h.2.symm⟩

theorem matching_eq_ok_iff :
    matching files filter = .ok found
      ↔ ∃ docs, Examined files filter docs ∧ found = docs.filter (Document.accepts filter) := by
  rw [matching]
  cases hall : Collection.all files with
  | error e =>
    constructor
    · intro h
      cases h
    · rintro ⟨docs, ⟨hdocs, -⟩, -⟩
      rw [hall] at hdocs
      cases hdocs
  | ok all =>
    rw [hits_eq_ok_iff]
    constructor
    · intro h
      exact ⟨all, ⟨hall, h.1⟩, h.2⟩
    · rintro ⟨docs, ⟨hdocs, hevaluated⟩, hfound⟩
      rw [hall] at hdocs
      obtain rfl := Except.ok.inj hdocs
      exact ⟨hevaluated, hfound⟩

/-! ## What is written -/

/-- Fields are set in documents that all have files: every file is written, and all are counted. -/
theorem setAll_eq (h : ∀ doc ∈ docs, Keyed.has (fileName doc.id) files = true) :
    setAll files set docs
      = (docs.length, (docs.map fun doc => doc.setAll set).foldl Collection.write files) := by
  induction docs generalizing files with
  | nil => rfl
  | cons doc rest ih =>
    obtain ⟨hdoc, hrest⟩ := List.forall_mem_cons.mp h
    have hhas : Keyed.has (fileName (doc.setAll set).id) files = true := by
      rwa [Document.id_setAll]
    -- A write takes no file away, so the remaining documents are found when it is their turn.
    have hothers : ∀ other ∈ rest,
        Keyed.has (fileName other.id) (Collection.write files (doc.setAll set)) = true := by
      intro other hother
      rw [Keyed.has_iff_mem_keys, Collection.write, Keyed.mem_keys_put, ← Keyed.has_iff_mem_keys]
      exact .inr (hrest other hother)
    rw [setAll, Collection.replace_eq_ok_iff.mpr ⟨hhas, rfl⟩]
    simp only [ih hothers]
    rfl

/-- The files that are left when the files of some documents are taken out. -/
def without (docs : List Document) (files : Files) : Files :=
  files.filter fun file => file.1 ∉ docs.map fun doc => fileName doc.id

/-- Documents of different identities that all have files are deleted: only their files are taken
out, and all are counted. -/
theorem deleteAll_eq (hfiles : (Keyed.keys files).Nodup) (hdocs : (docs.map Document.id).Nodup)
    (h : ∀ doc ∈ docs, Keyed.has (fileName doc.id) files = true) :
    deleteAll files docs = (docs.length, without docs files) := by
  induction docs generalizing files with
  | nil => simp [deleteAll, without]
  | cons doc rest ih =>
    obtain ⟨hdoc, hrest⟩ := List.forall_mem_cons.mp h
    obtain ⟨hnew, hnodup⟩ := List.nodup_cons.mp hdocs
    have herase := Keyed.erase_eq_filter hfiles (fileName doc.id)
    have hleft : (Keyed.keys (Keyed.erase (fileName doc.id) files)).Nodup :=
      hfiles.sublist ((Keyed.erase_sublist _ files).map Prod.fst)
    -- The remaining documents have other identities, so their files are still there.
    have hothers : ∀ other ∈ rest,
        Keyed.has (fileName other.id) (Keyed.erase (fileName doc.id) files) = true := by
      intro other hother
      have hne : fileName other.id ≠ fileName doc.id := fun hname =>
        hnew (Collection.fileName_inj hname ▸ List.mem_map_of_mem hother)
      have hkept := hrest other hother
      rw [Keyed.has_eq_isSome] at hkept ⊢
      rw [herase, Keyed.get?_filter (fun name => name ≠ fileName doc.id),
        if_pos (decide_eq_true hne)]
      exact hkept
    rw [deleteAll, Collection.delete_eq_ok_iff.mpr ⟨hdoc, rfl⟩]
    simp only [ih hleft hnodup hothers]
    rw [herase, without, without, List.filter_filter]
    congr 1
    apply List.filter_congr
    intro file _
    simp [Bool.and_comm]

/-! ## Files and documents behind a bulk write -/

section Files

open Collection (Read)

variable {doc : Document}

/-- Of documents of different identities each is the last of its own. -/
theorem isLast_of_nodup (h : (docs.map Document.id).Nodup) (hdoc : doc ∈ docs) :
    doc.IsLast docs := by
  obtain ⟨before, after, rfl⟩ := List.append_of_mem hdoc
  refine ⟨before, after, rfl, fun other hother hid => ?_⟩
  rw [List.map_append, List.map_cons, List.nodup_append] at h
  have hnew := (List.nodup_cons.mp h.2.1).1
  rw [← hid] at hnew
  exact hnew (List.mem_map_of_mem hother)

/-- What is read under an identity only depends on its file. -/
theorem read_congr {others : Files} {id : Int}
    (h : Keyed.get? (fileName id) others = Keyed.get? (fileName id) files) :
    Collection.read others id = Collection.read files id := by
  rw [Collection.read, h, Collection.read]

theorem keys_foldl_write (h : ∀ doc ∈ docs, Keyed.has (fileName doc.id) files = true) :
    Keyed.keys (docs.foldl Collection.write files) = Keyed.keys files := by
  induction docs generalizing files with
  | nil => rfl
  | cons doc rest ih =>
    obtain ⟨hdoc, hrest⟩ := List.forall_mem_cons.mp h
    have hkeys : Keyed.keys (Collection.write files doc) = Keyed.keys files :=
      Keyed.keys_put_of_mem ((Keyed.has_iff_mem_keys _ _).mp hdoc) _
    have hothers : ∀ other ∈ rest,
        Keyed.has (fileName other.id) (Collection.write files doc) = true := by
      intro other hother
      rw [Keyed.has_iff_mem_keys, hkeys, ← Keyed.has_iff_mem_keys]
      exact hrest other hother
    rw [List.foldl_cons, ih hothers, hkeys]

/-- The files of a collection in which fields were set. -/
def withSet (set : Fields) (found : List Document) (files : Files) : Files :=
  (found.map fun doc => doc.setAll set).foldl Collection.write files

theorem ids_withSet (h : ∀ doc ∈ found, Keyed.has (fileName doc.id) files = true) (set : Fields) :
    Collection.ids (withSet set found files) = Collection.ids files := by
  apply Collection.ids_eq_of_keys
  apply keys_foldl_write
  intro doc hdoc
  obtain ⟨given, hgiven, rfl⟩ := List.mem_map.mp hdoc
  rw [Document.id_setAll]
  exact h given hgiven

/-- The file of a document in which fields were set. -/
theorem get?_withSet_of_mem (h : (found.map Document.id).Nodup) (hdoc : doc ∈ found)
    (set : Fields) (files : Files) :
    Keyed.get? (fileName doc.id) (withSet set found files) = some (doc.setAll set).toText := by
  have hids : (found.map fun doc => doc.setAll set).map Document.id = found.map Document.id := by
    rw [List.map_map]
    exact List.map_congr_left fun doc _ => Document.id_setAll doc set
  have hlast := isLast_of_nodup (hids ▸ h) (List.mem_map_of_mem hdoc)
  have htext := get?_foldl_write_of_isLast hlast files
  rwa [Document.id_setAll] at htext

theorem get?_withSet_of_ne {file : String} (h : ∀ doc ∈ found, file ≠ fileName doc.id)
    (set : Fields) (files : Files) :
    Keyed.get? file (withSet set found files) = Keyed.get? file files := by
  apply get?_foldl_write_of_ne
  intro doc hdoc
  obtain ⟨given, hgiven, rfl⟩ := List.mem_map.mp hdoc
  rw [Document.id_setAll]
  exact h given hgiven

/-- The documents of a collection in which fields were set, if the new values can be read. -/
theorem all_withSet (h : Read files docs) (kept : Document → Bool)
    (hset : ∀ field ∈ set, Json.isReadable Document.fieldLevels field.2 = true) :
    Collection.all (withSet set (docs.filter kept) files)
      = .ok (docs.map fun doc => if kept doc then (doc.setAll set).reread else doc) := by
  have hhas : ∀ doc ∈ docs.filter kept, Keyed.has (fileName doc.id) files = true :=
    fun doc hdoc => h.has_fileName (List.mem_of_mem_filter hdoc)
  rw [Collection.all, ids_withSet hhas, ← h.ids]
  apply Collection.readAll_map
  intro doc hdoc
  split
  · next hkept =>
    have hnodup : ((docs.filter kept).map Document.id).Nodup :=
      h.nodup.sublist (List.filter_sublist.map Document.id)
    have htext := get?_withSet_of_mem hnodup (List.mem_filter.mpr ⟨hdoc, hkept⟩) set files
    have hstorable := Document.storable_setAll (h.storable doc hdoc) hset
    simp only [Collection.read, htext, Document.ofText?_toText hstorable]
  · next hkept =>
    -- A document that is not among them shares its file with none of them.
    have hsame : Keyed.get? (fileName doc.id) (withSet set (docs.filter kept) files)
        = Keyed.get? (fileName doc.id) files := by
      apply get?_withSet_of_ne
      intro other hother hname
      obtain ⟨hmem, hkeptOther⟩ := List.mem_filter.mp hother
      have heq := h.eq_of_id_eq hdoc hmem (Collection.fileName_inj hname)
      exact hkept (heq ▸ hkeptOther)
    rw [read_congr hsame, h.read doc hdoc]

theorem get?_without (found : List Document) (file : String) (files : Files) :
    Keyed.get? file (without found files)
      = if file ∈ found.map (fun doc => fileName doc.id) then none else Keyed.get? file files := by
  have hfilter := Keyed.get?_filter
    (fun name => decide (name ∉ found.map fun doc => fileName doc.id)) file files
  rw [without, hfilter]
  by_cases hmem : file ∈ found.map fun doc => fileName doc.id
  · rw [if_pos hmem, if_neg (by simpa using hmem)]
  · rw [if_neg hmem, if_pos (decide_eq_true hmem)]

theorem ids_without (h : Collection.Holds Document.WellFormed files) (found : List Document) :
    Collection.ids (without found files)
      = (Collection.ids files).filter fun id => id ∉ found.map Document.id := by
  have hnames : ∀ file ∈ files,
      (if file.1 ∉ found.map (fun doc => fileName doc.id) then Collection.idOfFile? file.1
          else none)
        = (Collection.idOfFile? file.1).filter fun id => id ∉ found.map Document.id := by
    intro file hfile
    obtain ⟨doc, hdoc, rfl⟩ := h.held file hfile
    have hmem : fileName doc.id ∈ found.map (fun doc => fileName doc.id)
        ↔ doc.id ∈ found.map Document.id := by
      simp only [List.mem_map]
      exact exists_congr fun other => and_congr_right fun _ =>
        ⟨Collection.fileName_inj, fun hid => hid ▸ rfl⟩
    rw [Collection.idOfFile?_fileName hdoc.fits, Option.filter_some]
    by_cases hid : doc.id ∈ found.map Document.id
    · rw [if_neg (not_not.mpr (hmem.mpr hid)), if_neg (by simpa using hid)]
    · rw [if_pos (mt hmem.mp hid), if_pos (decide_eq_true hid)]
  apply Collection.ids_eq_of_perm
  · rw [without, List.filterMap_filter]
    simp only [decide_eq_true_eq]
    rw [List.filterMap_congr hnames, ← List.filter_filterMap]
    exact (stableSort_perm _ _).symm.filter _
  · exact (Collection.pairwise_ids files).filter _

/-- The identities that are left when some documents are taken out. -/
theorem ids_without_filter (hfiles : Collection.Holds Document.WellFormed files)
    (h : Read files docs) (gone : Document → Bool) :
    Collection.ids (without (docs.filter gone) files)
      = (docs.filter fun doc => !gone doc).map Document.id := by
  have hgone : ∀ doc ∈ docs, doc.id ∈ (docs.filter gone).map Document.id ↔ gone doc = true := by
    intro doc hdoc
    rw [List.mem_map]
    constructor
    · rintro ⟨other, hother, hid⟩
      obtain ⟨hmem, hother⟩ := List.mem_filter.mp hother
      exact h.eq_of_id_eq hmem hdoc hid ▸ hother
    · exact fun hkept => ⟨doc, List.mem_filter.mpr ⟨hdoc, hkept⟩, rfl⟩
  rw [ids_without hfiles, ← h.ids, List.filter_map]
  congr 1
  apply List.filter_congr
  intro doc hdoc
  rw [Function.comp_apply, decide_not, Bool.eq_iff_iff, Bool.not_eq_true', Bool.not_eq_true',
    decide_eq_false_iff_not, hgone doc hdoc, Bool.not_eq_true]

/-- The documents that are left when some are taken out. -/
theorem all_without (hfiles : Collection.Holds Document.WellFormed files) (h : Read files docs)
    (gone : Document → Bool) :
    Collection.all (without (docs.filter gone) files) = .ok (docs.filter fun doc => !gone doc) := by
  have hread : ∀ doc ∈ docs.filter (fun doc => !gone doc),
      Collection.read (without (docs.filter gone) files) doc.id = .ok (some doc) := by
    intro doc hdoc
    obtain ⟨hmem, hkept⟩ := List.mem_filter.mp hdoc
    have hsame : Keyed.get? (fileName doc.id) (without (docs.filter gone) files)
        = Keyed.get? (fileName doc.id) files := by
      rw [get?_without, if_neg]
      intro hname
      obtain ⟨other, hother, heq⟩ := List.mem_map.mp hname
      obtain ⟨hotherMem, hgoneOther⟩ := List.mem_filter.mp hother
      have hsame := h.eq_of_id_eq hotherMem hmem (Collection.fileName_inj heq)
      rw [hsame] at hgoneOther
      simp [hgoneOther] at hkept
    rw [read_congr hsame, h.read doc hmem]
  rw [Collection.all, ids_without_filter hfiles h]
  have hall := Collection.readAll_map hread
  rwa [List.map_id'] at hall

end Files

/-! ## Bulk writes of a store -/

variable {s after : Store} {name : String} {n : Nat}
  {change : Files → List Document → Nat × Files}

/-- A bulk write that succeeds changes the documents that the filter accepts, and no directory is
new or lost. -/
theorem changeMany_eq_ok (hnone : change [] [] = (0, []))
    (h : s.changeMany name filter change = (.ok n, after)) :
    ∃ docs, Examined (s.filesOf name) filter docs
      ∧ change (s.filesOf name) (docs.filter (Document.accepts filter)) = (n, after.filesOf name)
      ∧ Keyed.keys after.directories = Keyed.keys s.directories := by
  rw [changeMany] at h
  split at h
  · cases h
  · -- A collection that does not exist has no documents to change.
    next hopen =>
    have hfiles : s.filesOf name = [] := by
      rw [filesOf, (open?_eq_ok_iff.mp hopen).2]
      rfl
    obtain ⟨hn, rfl⟩ := Prod.mk.inj h
    refine ⟨[], ⟨by rw [hfiles]; rfl, by simp⟩, ?_, rfl⟩
    rw [hfiles, ← Except.ok.inj hn]
    exact hnone
  · next files hopen =>
    have hget := (open?_eq_ok_iff.mp hopen).2
    have hfiles : s.filesOf name = files := by
      rw [filesOf, hget]
      rfl
    have hname : name ∈ Keyed.keys s.directories := by
      rw [← Keyed.has_iff_mem_keys, Keyed.has_eq_isSome, hget]
      rfl
    split at h
    · cases h
    · next found hmatching =>
      obtain ⟨docs, hexamined, rfl⟩ := matching_eq_ok_iff.mp hmatching
      obtain ⟨hn, rfl⟩ := Prod.mk.inj h
      refine ⟨docs, hfiles ▸ hexamined, ?_, Keyed.keys_put_of_mem hname _⟩
      rw [hfiles, filesOf_put_self, ← Except.ok.inj hn]

/-- A bulk write succeeds if the name is valid and the filter can be evaluated on all documents. -/
theorem changeMany_of_examined (hname : Collection.checkName name = .ok ())
    (h : Examined (s.filesOf name) filter docs) :
    ∃ n after, s.changeMany name filter change = (.ok n, after) := by
  rw [changeMany, open?, hname]
  cases hget : Keyed.get? name s.directories with
  | none => exact ⟨0, s, rfl⟩
  | some files =>
    have hfiles : s.filesOf name = files := by
      rw [filesOf, hget]
      rfl
    dsimp only
    rw [matching_eq_ok_iff.mpr ⟨docs, hfiles ▸ h, rfl⟩]
    exact ⟨_, _, rfl⟩

/-- A bulk write that fails changes nothing. -/
theorem changeMany_error {e : StoreError} (h : (s.changeMany name filter change).1 = .error e) :
    (s.changeMany name filter change).2 = s := by
  rw [changeMany] at h ⊢
  split at h
  · rfl
  · cases h
  · split at h
    · rfl
    · cases h

/-- A bulk write fails if its filter cannot be evaluated on one of the documents. -/
theorem changeMany_of_failing (hnone : change [] [] = (0, []))
    (hall : Collection.all (s.filesOf name) = .ok docs) {doc : Document} (hdoc : doc ∈ docs)
    {e : PipelineError} (he : Document.satisfies doc.toJson filter = .error e) :
    ∃ e', s.changeMany name filter change = (.error e', s) := by
  cases hresult : s.changeMany name filter change with
  | mk answer after =>
    cases answer with
    | error e' =>
      have hsame := changeMany_error (congrArg Prod.fst hresult)
      rw [hresult] at hsame
      exact ⟨e', by rw [← hsame]⟩
    | ok n =>
      obtain ⟨read, ⟨hread, hevaluated⟩, -⟩ := changeMany_eq_ok hnone hresult
      rw [hall] at hread
      obtain rfl := Except.ok.inj hread
      obtain ⟨hit, hhit⟩ := hevaluated doc hdoc
      rw [he] at hhit
      cases hhit

/-- What setting fields of the documents that a filter accepts makes of a store: the file of each
has the text of the document in which the fields are set; every other file, all identities and all
other collections are as they were. If the new values are not nested too deeply, then these
documents are read with their doubles read again, and the others as before. -/
structure UpdatedIn (before after : Store) (name : String) (filter set : Fields)
    (docs : List Document) : Prop where
  written : ∀ doc ∈ docs, doc.accepts filter = true →
    Document.Updated set doc (doc.setAll set)
      ∧ after.fileText? name (fileName doc.id) = some (doc.setAll set).toText
  kept : ∀ file, (∀ doc ∈ docs, doc.accepts filter = true → file ≠ fileName doc.id) →
    after.fileText? name file = before.fileText? name file
  found : (∀ field ∈ set, Json.isReadable Document.fieldLevels field.2 = true) →
    Collection.all (after.filesOf name)
      = .ok (docs.map fun doc => if doc.accepts filter then (doc.setAll set).reread else doc)
  ids : Collection.ids (after.filesOf name) = Collection.ids (before.filesOf name)
  collections : after.collections = before.collections
  apart : ∀ other, other ≠ name →
    Keyed.get? other after.directories = Keyed.get? other before.directories

/-- What removing the documents that a filter accepts makes of a store: their files are gone; every
other file and all other collections are as they were. The other documents are left in order, and
none of them satisfies the filter. -/
structure RemovedFrom (before after : Store) (name : String) (filter : Fields)
    (docs : List Document) : Prop where
  gone : ∀ doc ∈ docs, doc.accepts filter = true →
    after.fileText? name (fileName doc.id) = none
  kept : ∀ file, (∀ doc ∈ docs, doc.accepts filter = true → file ≠ fileName doc.id) →
    after.fileText? name file = before.fileText? name file
  ids : Collection.ids (after.filesOf name)
    = (docs.filter fun doc => !doc.accepts filter).map Document.id
  left : Collection.all (after.filesOf name) = .ok (docs.filter fun doc => !doc.accepts filter)
  again : matching (after.filesOf name) filter = .ok []
  collections : after.collections = before.collections
  apart : ∀ other, other ≠ name →
    Keyed.get? other after.directories = Keyed.get? other before.directories

/-- Setting fields of the documents that a filter accepts. -/
theorem updatedIn_of_updateMany (h : s.Obtained) (hset : (Keyed.keys set).Nodup)
    (hupdate : s.perform (.updateMany name filter set) = (.ok n, after)) :
    ∃ docs, Examined (s.filesOf name) filter docs
      ∧ n = docs.countP (Document.accepts filter) ∧ UpdatedIn s after name filter set docs := by
  obtain ⟨docs, hexamined, hchange, hkeys⟩ := changeMany_eq_ok rfl hupdate
  have hread := (h.holds.filesOf name).read_of_all hexamined.all
  have hhas : ∀ doc ∈ docs.filter (Document.accepts filter),
      Keyed.has (fileName doc.id) (s.filesOf name) = true :=
    fun doc hdoc => hread.has_fileName (List.mem_of_mem_filter hdoc)
  rw [setAll_eq hhas] at hchange
  obtain ⟨hcount, hfiles⟩ := Prod.mk.inj hchange
  have hafter : after.filesOf name
      = withSet set (docs.filter (Document.accepts filter)) (s.filesOf name) := hfiles.symm
  refine ⟨docs, hexamined, by rw [← hcount, List.countP_eq_length_filter], ?_, ?_, ?_, ?_, ?_, ?_⟩
  · intro doc hdoc haccepts
    have hnodup : ((docs.filter (Document.accepts filter)).map Document.id).Nodup :=
      hread.nodup.sublist (List.filter_sublist.map Document.id)
    refine ⟨Document.updated_setAll hset doc, ?_⟩
    rw [fileText?_eq, hafter]
    exact get?_withSet_of_mem hnodup (List.mem_filter.mpr ⟨hdoc, haccepts⟩) set _
  · intro file hfile
    rw [fileText?_eq, fileText?_eq, hafter]
    apply get?_withSet_of_ne
    intro doc hdoc
    obtain ⟨hmem, haccepts⟩ := List.mem_filter.mp hdoc
    exact hfile doc hmem haccepts
  · intro hvalues
    rw [hafter]
    exact all_withSet hread (Document.accepts filter) hvalues
  · rw [hafter, ids_withSet hhas]
  · rw [collections, collections, hkeys]
  · intro other hother
    have hapart : Keyed.get? other (s.perform (.updateMany name filter set)).2.directories
        = Keyed.get? other s.directories := get?_perform_of_ne hother
    rwa [hupdate] at hapart

/-- Removing the documents that a filter accepts. -/
theorem removedFrom_of_removeMany (h : s.Obtained)
    (hremove : s.perform (.removeMany name filter) = (.ok n, after)) :
    ∃ docs, Examined (s.filesOf name) filter docs
      ∧ n = docs.countP (Document.accepts filter) ∧ RemovedFrom s after name filter docs := by
  obtain ⟨docs, hexamined, hchange, hkeys⟩ := changeMany_eq_ok rfl hremove
  have hholds := h.holds.filesOf name
  have hread := hholds.read_of_all hexamined.all
  have hhas : ∀ doc ∈ docs.filter (Document.accepts filter),
      Keyed.has (fileName doc.id) (s.filesOf name) = true :=
    fun doc hdoc => hread.has_fileName (List.mem_of_mem_filter hdoc)
  have hnodup : ((docs.filter (Document.accepts filter)).map Document.id).Nodup :=
    hread.nodup.sublist (List.filter_sublist.map Document.id)
  rw [deleteAll_eq hholds.nodup hnodup hhas] at hchange
  obtain ⟨hcount, hfiles⟩ := Prod.mk.inj hchange
  have hafter : after.filesOf name
      = without (docs.filter (Document.accepts filter)) (s.filesOf name) := hfiles.symm
  have hleft := all_without hholds hread (Document.accepts filter)
  rw [← hafter] at hleft
  refine ⟨docs, hexamined, by rw [← hcount, List.countP_eq_length_filter],
    ?_, ?_, ?_, hleft, ?_, ?_, ?_⟩
  · intro doc hdoc haccepts
    rw [fileText?_eq, hafter, get?_without, if_pos]
    exact List.mem_map_of_mem (List.mem_filter.mpr ⟨hdoc, haccepts⟩)
  · intro file hfile
    rw [fileText?_eq, fileText?_eq, hafter, get?_without, if_neg]
    intro hmem
    obtain ⟨doc, hdoc, rfl⟩ := List.mem_map.mp hmem
    obtain ⟨hmem, haccepts⟩ := List.mem_filter.mp hdoc
    exact hfile doc hmem haccepts rfl
  · rw [hafter]
    exact ids_without_filter hholds hread (Document.accepts filter)
  · -- What is left was examined before, and was not accepted.
    apply matching_eq_ok_iff.mpr
    refine ⟨_, ⟨hleft, fun doc hdoc => hexamined.evaluated doc (List.mem_of_mem_filter hdoc)⟩, ?_⟩
    simp [List.filter_filter]
  · rw [collections, collections, hkeys]
  · intro other hother
    have hapart : Keyed.get? other (s.perform (.removeMany name filter)).2.directories
        = Keyed.get? other s.directories := get?_perform_of_ne hother
    rwa [hremove] at hapart

/-- **Bulk writes touch exactly the documents that the filter accepts.** One that succeeds has
counted these documents and has written only their files. It succeeds if the filter can be evaluated
on all documents; if it cannot be evaluated on one of them, then nothing is written. -/
theorem bulk_writes (h : s.Obtained) (name : String) (filter : Fields)
    (hset : (Keyed.keys set).Nodup) :
    (∀ n after, s.perform (.updateMany name filter set) = (.ok n, after) →
      ∃ docs, Examined (s.filesOf name) filter docs
        ∧ n = docs.countP (Document.accepts filter) ∧ UpdatedIn s after name filter set docs)
      ∧ (∀ n after, s.perform (.removeMany name filter) = (.ok n, after) →
        ∃ docs, Examined (s.filesOf name) filter docs
          ∧ n = docs.countP (Document.accepts filter) ∧ RemovedFrom s after name filter docs)
      ∧ (∀ docs, Collection.checkName name = .ok () → Examined (s.filesOf name) filter docs →
        (∃ n after, s.perform (.updateMany name filter set) = (.ok n, after))
          ∧ ∃ n after, s.perform (.removeMany name filter) = (.ok n, after))
      ∧ ∀ docs doc e, Collection.all (s.filesOf name) = .ok docs → doc ∈ docs →
        Document.satisfies doc.toJson filter = .error e →
          (∃ e', s.perform (.updateMany name filter set) = (.error e', s))
            ∧ ∃ e', s.perform (.removeMany name filter) = (.error e', s) := by
  refine ⟨fun n after => updatedIn_of_updateMany h hset, fun n after =>
    removedFrom_of_removeMany h, ?_, ?_⟩
  · intro docs hname hexamined
    exact ⟨changeMany_of_examined hname hexamined, changeMany_of_examined hname hexamined⟩
  · intro docs doc e hall hdoc he
    exact ⟨changeMany_of_failing rfl hall hdoc he, changeMany_of_failing rfl hall hdoc he⟩

def insertTasks : Call :=
  .insertMany "tasks" [⟨1, [("state", .str "open")]⟩, ⟨2, [("state", .str "done")]⟩]

def taskStore : Store := (Store.perform {} insertTasks).2

/-- One of the tasks is open. It is held, the other one stays done; and when the open task is
removed only the other one is left. An identity among the fields is not set. -/
theorem bulk_writes_tasks :
    taskStore.Obtained ∧ (Keyed.keys [("state", Json.str "held"), ("_id", .int 9)]).Nodup
      ∧ (∃ after, taskStore.perform (.updateMany "tasks" [("state", .str "open")]
          [("state", .str "held"), ("_id", .int 9)]) = (.ok (1 : Nat), after)
        ∧ Collection.all (after.filesOf "tasks")
          = .ok [⟨1, [("state", .str "held")]⟩, ⟨2, [("state", .str "done")]⟩])
      ∧ ∃ after, taskStore.perform (.removeMany "tasks" [("state", .str "open")])
          = (.ok (1 : Nat), after)
        ∧ Collection.all (after.filesOf "tasks") = .ok [⟨2, [("state", .str "done")]⟩] := by
  have hdocs : ∀ doc ∈ [(⟨1, [("state", .str "open")]⟩ : Document),
      ⟨2, [("state", .str "done")]⟩], doc.Storable
        ∧ ∀ field ∈ doc.fields, Json.isExact Document.fieldLevels field.2 = true := by decide
  have hobtained : taskStore.Obtained :=
    .operate (.call insertTasks) .empty fun doc hdoc => (hdocs doc hdoc).1.wellFormed
  have hset : (Keyed.keys [("state", Json.str "held"), ("_id", .int 9)]).Nodup := by decide
  have hall : Collection.all (taskStore.filesOf "tasks")
      = .ok [⟨1, [("state", .str "open")]⟩, ⟨2, [("state", .str "done")]⟩] := by
    have hfaithful : insertTasks.Faithful := fun doc hdoc =>
      Document.faithful_of_isExact (hdocs doc hdoc).1 (hdocs doc hdoc).2
    have hmaps := (Represents.empty.perform hfaithful).2 "tasks"
    rw [filesOf]
    generalize hfound : Keyed.get? "tasks" taskStore.directories = found
    rw [show (Store.perform {} insertTasks).2 = taskStore from rfl, hfound] at hmaps
    cases hmaps with
    | some hfiles => exact hfiles.all_eq
  have hexamined : Examined (taskStore.filesOf "tasks") [("state", .str "open")]
      [⟨1, [("state", .str "open")]⟩, ⟨2, [("state", .str "done")]⟩] := by
    refine ⟨hall, ?_⟩
    simp only [List.forall_mem_cons]
    exact ⟨⟨true, rfl⟩, ⟨false, rfl⟩, List.forall_mem_nil _⟩
  obtain ⟨hupdate, hremove, hok, -⟩ :=
    bulk_writes hobtained "tasks" [("state", .str "open")] hset
  obtain ⟨⟨n, after, hupdated⟩, m, left, hremoved⟩ := hok _ rfl hexamined
  refine ⟨hobtained, hset, ⟨after, ?_⟩, left, ?_⟩
  · obtain ⟨docs, hdocs, rfl, hafter⟩ := hupdate n after hupdated
    obtain rfl := Except.ok.inj (hall.symm.trans hdocs.all)
    exact ⟨hupdated, hafter.found (by decide)⟩
  · obtain ⟨docs, hdocs, rfl, hleft⟩ := hremove m left hremoved
    obtain rfl := Except.ok.inj (hall.symm.trans hdocs.all)
    exact ⟨hremoved, hleft.left⟩

/-- A document with a double whose text is read as another double, and that one's as the first. -/
def sample : Document := ⟨1, [("x", .float 5.505950395976709e194)]⟩

def sampleStore : Store := (Store.perform {} (.insertMany "samples" [sample])).2

/-- A field that is not set is not always kept: when another field of its document is set, a double
in it is read again. -/
theorem double_not_kept :
    sampleStore.Obtained
      ∧ ∃ (after : Store) (before now : Document),
        sampleStore.perform (.updateMany "samples" [] [("y", .int 1)]) = (.ok (1 : Nat), after)
          ∧ Collection.get (sampleStore.filesOf "samples") 1 = .ok before
          ∧ Collection.get (after.filesOf "samples") 1 = .ok now
          ∧ now.get? "x" ≠ before.get? "x" := by
  have hstorable : sample.Storable := by decide +kernel
  have hobtained : sampleStore.Obtained :=
    .operate (.call (.insertMany "samples" [sample])) .empty
      (List.forall_mem_singleton.mpr hstorable.wellFormed)
  have hfiles : sampleStore.filesOf "samples" = [(fileName sample.id, sample.toText)] := rfl
  have hread : Collection.read (sampleStore.filesOf "samples") sample.id
      = .ok (some sample.reread) := by
    rw [hfiles, Collection.read, Keyed.get?, if_pos rfl]
    simp only [Document.ofText?_toText hstorable]
  have hids : Collection.ids (sampleStore.filesOf "samples") = [sample.id] := by
    rw [hfiles]
    exact Collection.ids_eq_of_perm
      (by rw [List.filterMap_cons, Collection.idOfFile?_fileName hstorable.fits]; rfl)
      (List.pairwise_singleton _ _)
  have hall : Collection.all (sampleStore.filesOf "samples") = .ok [sample.reread] := by
    rw [Collection.all, hids, Collection.readAll, hread]
    rfl
  have hexamined : Examined (sampleStore.filesOf "samples") [] [sample.reread] :=
    ⟨hall, List.forall_mem_singleton.mpr ⟨true, rfl⟩⟩
  have hok : ∀ s : Store, Examined (s.filesOf "samples") [] [sample.reread] →
      ∃ n after, s.perform (.updateMany "samples" [] [("y", .int 1)]) = (.ok n, after) :=
    fun s h => changeMany_of_examined rfl h
  obtain ⟨n, after, hupdated⟩ := hok sampleStore hexamined
  obtain ⟨docs, hdocs, rfl, hafter⟩ := updatedIn_of_updateMany hobtained (by decide) hupdated
  obtain rfl := Except.ok.inj (hall.symm.trans hdocs.all)
  obtain ⟨-, htext⟩ := hafter.written sample.reread List.mem_cons_self rfl
  have hnow : (sample.reread.setAll [("y", .int 1)]).Storable :=
    Document.storable_setAll (Document.storable_reread hstorable) (by decide)
  rw [fileText?_eq] at htext
  refine ⟨hobtained, after, sample.reread, (sample.reread.setAll [("y", .int 1)]).reread,
    hupdated, ?_, ?_, ?_⟩
  · show Collection.get _ sample.id = _
    rw [Collection.get, hread]
  · show Collection.get _ sample.reread.id = _
    rw [Collection.get, Collection.read, htext]
    simp only [Document.ofText?_toText hnow]
  · intro h
    have hdouble : Json.rereadDouble (Json.rereadDouble 5.505950395976709e194)
        = Json.rereadDouble 5.505950395976709e194 := Json.float.inj (Option.some.inj h)
    have hbits : (Json.rereadDouble (Json.rereadDouble 5.505950395976709e194)).toBits
        ≠ (Json.rereadDouble 5.505950395976709e194).toBits := by decide +kernel
    exact hbits (congrArg Float.toBits hdouble)

end Store

end DualStore
