import DualStore.Proofs.HeldDocuments
import DualStore.Proofs.IndentedText

/-!
# Documents as they are stored

The text of a document is read as the document with its doubles read again. If every file of a
collection has the text of a document that can be read, then all of its documents can be read.

* `Document.HasValues`, `hasValues_setAll`: documents with fields of some kind, and fields set;
* `Document.Storable`: the documents whose texts can be read;
* `Document.reread`, `ofText?_toText`: a document as its text is read;
* `Collection.Sound`: every file is that of such a document; `Sound.write`, `Sound.erase` keep it;
* `Sound.read_eq`, `Sound.all_eq`: one document, and all of them.
-/

namespace DualStore

namespace Document

/-- Whether the identity of a document fits into 64 bits, the document has each field once and none
that is named like the identity, and the values of all fields have a property. -/
structure HasValues (Q : Json → Prop) (d : Document) : Prop where
  fits : Decimal.fitsInt64 d.id = true
  nodup : (Keyed.keys d.fields).Nodup
  notIdKey : idKey ∉ Keyed.keys d.fields
  values : ∀ field ∈ d.fields, Q field.2

theorem hasValues_set {Q : Json → Prop} {d : Document} (h : d.HasValues Q) (key : String)
    {value : Json} (hvalue : Q value) : (d.set key value).HasValues Q := by
  rw [set]
  split
  · exact h
  · next hkey =>
    refine ⟨h.fits, Keyed.nodup_put h.nodup key value, ?_, fun field hfield => ?_⟩
    · rw [Keyed.mem_keys_put]
      rintro (heq | hmem)
      · exact hkey heq.symm
      · exact h.notIdKey hmem
    · rcases (Keyed.mem_put h.nodup key value field).mp hfield with rfl | ⟨hmem, -⟩
      · exact hvalue
      · exact h.values field hmem

theorem hasValues_setAll {Q : Json → Prop} {d : Document} (h : d.HasValues Q) {set : Fields}
    (hset : ∀ field ∈ set, Q field.2) : (d.setAll set).HasValues Q := by
  induction set generalizing d with
  | nil => exact h
  | cons field rest ih =>
    obtain ⟨hfield, hrest⟩ := List.forall_mem_cons.mp hset
    exact ih (hasValues_set h field.1 hfield) hrest

/-- How deeply the fields of a document may be nested. -/
def fieldLevels : Nat := 126

/-- Whether the text of a document can be read: its identity fits into 64 bits, it has each field
once and none that is named like the identity, and the texts of the fields can be read, which are
not nested too deeply. -/
structure Storable (d : Document) : Prop where
  fits : Decimal.fitsInt64 d.id = true
  nodup : (Keyed.keys d.fields).Nodup
  notIdKey : idKey ∉ Keyed.keys d.fields
  readable : ∀ field ∈ d.fields, Json.isReadable fieldLevels field.2 = true

instance (d : Document) : Decidable d.Storable :=
  decidable_of_iff (Decimal.fitsInt64 d.id = true ∧ (Keyed.keys d.fields).Nodup
      ∧ idKey ∉ Keyed.keys d.fields
      ∧ ∀ field ∈ d.fields, Json.isReadable fieldLevels field.2 = true)
    ⟨fun ⟨fits, nodup, notIdKey, readable⟩ => ⟨fits, nodup, notIdKey, readable⟩,
      fun h => ⟨h.fits, h.nodup, h.notIdKey, h.readable⟩⟩

theorem storable_iff_hasValues {d : Document} :
    d.Storable ↔ d.HasValues fun value => Json.isReadable fieldLevels value = true :=
  ⟨fun h => ⟨h.fits, h.nodup, h.notIdKey, h.readable⟩,
    fun h => ⟨h.fits, h.nodup, h.notIdKey, h.values⟩⟩

/-- A document as its text is read: every double is read again. -/
def reread (d : Document) : Document := ⟨d.id, Json.rereadFields d.fields⟩

variable {d : Document}

theorem isReadable_toJson (h : d.Storable) : Json.isReadable Json.maxLevels d.toJson = true := by
  have hid : Json.isReadable fieldLevels (.int d.id) = true := by
    have hfits := h.fits
    rw [Decimal.fitsInt64_iff, Decimal.int64Min, Decimal.int64Max] at hfits
    simp only [fieldLevels, Json.isReadable, Bool.and_eq_true, decide_eq_true_eq]
    omega
  show Json.isReadable (fieldLevels + 1) d.toJson = true
  exact Json.isReadable_obj.mpr ⟨List.nodup_cons.mpr ⟨h.notIdKey, h.nodup⟩,
    List.forall_mem_cons.mpr ⟨hid, h.readable⟩⟩

theorem storable_reread (h : d.Storable) : d.reread.Storable where
  fits := h.fits
  nodup := by
    rw [reread, Json.keys_rereadFields]
    exact h.nodup
  notIdKey := by
    rw [reread, Json.keys_rereadFields]
    exact h.notIdKey
  readable := by
    intro field hfield
    rw [reread, Json.rereadFields_eq_map] at hfield
    obtain ⟨given, hgiven, rfl⟩ := List.mem_map.mp hfield
    exact Json.isReadable_reread (h.readable given hgiven)

/-- A document without doubles is read as it is. -/
theorem reread_of_isExact (h : Json.isExact Json.maxLevels d.toJson = true) : d.reread = d := by
  have hsame := Json.reread_of_isExact h
  have hfields : (idKey, Json.int d.id) :: Json.rereadFields d.fields
      = (idKey, .int d.id) :: d.fields := Json.obj.inj hsame
  rw [reread, (List.cons.inj hfields).2]

/-- **The text of a document is read as the document with its doubles read again.** -/
theorem ofText?_toText (h : d.Storable) : ofText? d.toText = some d.reread := by
  have hreadable := isReadable_toJson h
  have hstorable := storable_reread h
  have hraw : Json.readRaw? d.toText = some (.obj ((idKey, .int d.id) :: d.reread.fields)) :=
    Json.readRaw?_prettyText hreadable
  have hothers : ∀ field ∈ d.reread.fields, field.1 ≠ idKey := by
    rintro field hfield heq
    have hmem := Keyed.mem_keys hfield
    rw [heq] at hmem
    exact hstorable.notIdKey hmem
  have hid : ((idKey, Json.int d.id) :: d.reread.fields).filter (fun field => field.1 = idKey)
      = [(idKey, .int d.id)] := by
    rw [List.filter_cons_of_pos (by simp), List.filter_eq_nil_iff.mpr]
    intro field hfield
    simpa using hothers field hfield
  have hfields : ((idKey, Json.int d.id) :: d.reread.fields).filter (fun field => field.1 ≠ idKey)
      = d.reread.fields := by
    rw [List.filter_cons_of_neg (by simp), List.filter_eq_self.mpr]
    intro field hfield
    simpa using hothers field hfield
  have hothersReadable : Json.isReadable (fieldLevels + 1) (.obj d.reread.fields) = true :=
    Json.isReadable_obj.mpr ⟨hstorable.nodup, hstorable.readable⟩
  have hmerged := Json.merged_of_isReadable hothersReadable
  have hint : Json.asInt64? (.int d.id) = some d.id := by
    rw [Json.asInt64?, if_pos h.fits]
  simp only [ofText?, hraw, hid, hint, hfields, hmerged]
  rfl

theorem storable_keptByReading : KeptByReading Storable := by
  intro doc read hdoc hread
  rw [ofText?_toText hdoc] at hread
  rw [← Option.some.inj hread]
  exact storable_reread hdoc

/-! ## Fields set -/

theorem storable_setAll (h : d.Storable) {set : Fields}
    (hset : ∀ field ∈ set, Json.isReadable fieldLevels field.2 = true) :
    (d.setAll set).Storable :=
  storable_iff_hasValues.mpr (hasValues_setAll (storable_iff_hasValues.mp h) hset)

end Document

namespace Collection

/-! ## Sound collections -/

/-- Whether every file is that of a document whose text can be read, under the name of its
identity. -/
structure Sound (files : Files) : Prop where
  nodup : (Keyed.keys files).Nodup
  stored : ∀ file ∈ files, ∃ doc : Document,
    doc.Storable ∧ file = (fileName doc.id, doc.toText)

theorem sound_iff_holds {files : Files} : Sound files ↔ Holds Document.Storable files :=
  ⟨fun h => ⟨h.nodup, h.stored⟩, fun h => ⟨h.nodup, h.held⟩⟩

namespace Sound

variable {files : Files}

theorem holds (h : Sound files) : Holds Document.Storable files := sound_iff_holds.mp h

theorem write (h : Sound files) {doc : Document} (hdoc : doc.Storable) :
    Sound (write files doc) := sound_iff_holds.mpr (h.holds.write hdoc)

/-- The document in a file. -/
theorem document_of_get? (h : Sound files) {id : Int} {text : String}
    (hget : Keyed.get? (fileName id) files = some text) :
    ∃ doc : Document, doc.Storable ∧ doc.id = id ∧ text = doc.toText :=
  h.holds.document_of_get? hget

/-- A document whose identity has a file is read. -/
theorem read_eq (h : Sound files) {id : Int} (hmem : fileName id ∈ Keyed.keys files) :
    ∃ doc : Document, doc.Storable ∧ doc.id = id ∧ read files id = .ok (some doc) := by
  obtain ⟨text, hget⟩ : ∃ text, Keyed.get? (fileName id) files = some text := by
    rw [← Option.isSome_iff_exists, ← Keyed.has_eq_isSome, Keyed.has_iff_mem_keys]
    exact hmem
  obtain ⟨doc, hdoc, rfl, rfl⟩ := h.document_of_get? hget
  exact ⟨doc.reread, Document.storable_reread hdoc, rfl,
    by simp only [read, hget, Document.ofText?_toText hdoc]⟩

theorem mem_ids (h : Sound files) (id : Int) :
    id ∈ ids files ↔ Decimal.fitsInt64 id = true ∧ fileName id ∈ Keyed.keys files :=
  h.holds.mem_ids (fun _ hdoc => hdoc.fits) id

/-- No two files give the same identity. -/
theorem nodup_ids (h : Sound files) : (ids files).Nodup := h.holds.nodup_ids fun _ hdoc => hdoc.fits

theorem readAll_eq (h : Sound files) {ids : List Int}
    (hids : ∀ id ∈ ids, Decimal.fitsInt64 id = true ∧ fileName id ∈ Keyed.keys files) :
    ∃ docs, readAll files ids = .ok docs ∧ docs.map Document.id = ids
      ∧ ∀ doc ∈ docs, doc.Storable := by
  induction ids with
  | nil => exact ⟨[], rfl, rfl, by simp⟩
  | cons id rest ih =>
    obtain ⟨⟨hfits, hmem⟩, hrest⟩ := List.forall_mem_cons.mp hids
    obtain ⟨doc, hdoc, hid, hread⟩ := h.read_eq hmem
    obtain ⟨docs, hdocs, hmap, hstorable⟩ := ih hrest
    refine ⟨doc :: docs, ?_, by rw [List.map_cons, hid, hmap],
      List.forall_mem_cons.mpr ⟨hdoc, hstorable⟩⟩
    simp only [readAll, hread, hdocs, Option.toList_some, List.singleton_append]

/-- All documents can be read; each identity that has a file is there once. -/
theorem all_eq (h : Sound files) :
    ∃ docs, all files = .ok docs ∧ (docs.map Document.id).Nodup
      ∧ (∀ doc ∈ docs, doc.Storable)
      ∧ ∀ id, Decimal.fitsInt64 id = true →
          (id ∈ docs.map Document.id ↔ Keyed.has (fileName id) files = true) := by
  obtain ⟨docs, hdocs, hmap, hstorable⟩ := h.readAll_eq fun id hid => (h.mem_ids id).mp hid
  refine ⟨docs, hdocs, by rw [hmap]; exact h.nodup_ids, hstorable, fun id hfits => ?_⟩
  rw [hmap, h.mem_ids, Keyed.has_iff_mem_keys]
  exact and_iff_right hfits

end Sound

end Collection

end DualStore
