import DualStore.Proofs.StoredDocuments

/-!
# Reached stores

The stores that the calls of sessions reach from the empty one, if the documents that the calls
write can be read. All files in them are those of documents.

* `Call.Fits`: the calls that only write documents whose texts can be read;
* `Store.Reached`: the stores that such calls reach;
* `Store.Sound`: every collection is sound;
* `Sound.perform`, `Reached.sound`: one call, and all of them;
* `Store.Short`, `Reached.short`: the names of their directories are short enough.
-/

namespace DualStore

/-- Whether the texts of all documents that a call writes can be read. -/
def Call.Fits : Call → Prop
  | .aggregate _ _ => True
  | .insertMany _ docs => ∀ doc ∈ docs, doc.Storable
  | .updateById _ doc => doc.Storable
  | .updateMany _ _ set => ∀ field ∈ set, Json.isReadable Document.fieldLevels field.2 = true
  | .removeMany _ _ => True

instance : (call : Call) → Decidable call.Fits
  | .aggregate _ _ => inferInstanceAs (Decidable True)
  | .insertMany _ docs => inferInstanceAs (Decidable (∀ doc ∈ docs, doc.Storable))
  | .updateById _ doc => inferInstanceAs (Decidable doc.Storable)
  | .updateMany _ _ set => inferInstanceAs
      (Decidable (∀ field ∈ set, Json.isReadable Document.fieldLevels field.2 = true))
  | .removeMany _ _ => inferInstanceAs (Decidable True)

namespace Store

/-- The stores that calls reach from the empty store, whether they succeed or fail. -/
inductive Reached : Store → Prop
  | empty : Reached {}
  | perform {s : Store} (call : Call) (h : Reached s) (fits : call.Fits) :
      Reached (s.perform call).2

/-- Whether each directory is there once and all of them are sound. -/
structure Sound (s : Store) : Prop where
  nodup : (Keyed.keys s.directories).Nodup
  files : ∀ directory ∈ s.directories, Collection.Sound directory.2

theorem sound_iff_holds {s : Store} : s.Sound ↔ s.Holds Document.Storable := by
  constructor
  · exact fun h => ⟨h.nodup, fun directory hmem => (h.files directory hmem).holds⟩
  · intro h
    exact ⟨h.nodup, fun directory hmem => Collection.sound_iff_holds.mpr (h.files directory hmem)⟩

namespace Sound

variable {s : Store} {files : Collection.Files}

theorem holds (h : s.Sound) : s.Holds Document.Storable := sound_iff_holds.mp h

theorem empty : Sound {} := sound_iff_holds.mpr .empty

theorem files_of_get? (h : s.Sound) {name : String} {files : Collection.Files}
    (hget : Keyed.get? name s.directories = some files) : Collection.Sound files :=
  Collection.sound_iff_holds.mpr (h.holds.files_of_get? hget)

theorem put (h : s.Sound) (name : String) (hfiles : Collection.Sound files) :
    (s.put name files).Sound := sound_iff_holds.mpr (h.holds.put name hfiles.holds)

/-- Every call leaves the collections sound if the documents that it writes can be read. -/
theorem perform (h : s.Sound) {call : Call} (fits : call.Fits) : (s.perform call).2.Sound := by
  have hwrites : call.Writes Document.Storable := by
    cases call with
    | updateMany name filter set => exact fun doc hdoc => Document.storable_setAll hdoc fits
    | _ => exact fits
  exact sound_iff_holds.mpr (h.holds.perform Document.storable_keptByReading hwrites)

end Sound

/-- **In every store that is reached all files are those of documents.** -/
theorem Reached.sound {s : Store} (h : s.Reached) : s.Sound := by
  induction h with
  | empty => exact Sound.empty
  | perform call _ fits ih => exact ih.perform fits

/-! ## Names of directories -/

/-- Whether the names of all directories are short enough to be names. -/
def Short (s : Store) : Prop :=
  ∀ name ∈ Keyed.keys s.directories, name.utf8ByteSize ≤ maxNameBytes

namespace Short

variable {s : Store} {name : String}

theorem put (h : s.Short) (hname : name.utf8ByteSize ≤ maxNameBytes)
    (files : Collection.Files) : (s.put name files).Short := by
  intro other hmem
  rcases (Keyed.mem_keys_put _ _ _ other).mp hmem with rfl | hmem
  · exact hname
  · exact h other hmem

theorem of_get? (h : s.Short) {files : Collection.Files}
    (hget : Keyed.get? name s.directories = some files) :
    name.utf8ByteSize ≤ maxNameBytes := by
  apply h
  rw [← Keyed.has_iff_mem_keys, Keyed.has_eq_isSome, hget]
  rfl

theorem create (h : s.Short) {files : Collection.Files} {created : Store}
    (hcreate : s.create name = .ok (files, created)) :
    name.utf8ByteSize ≤ maxNameBytes ∧ created.Short := by
  obtain ⟨-, ⟨hget, rfl⟩ | ⟨-, hshort, rfl, rfl⟩⟩ := create_eq_ok_iff.mp hcreate
  · exact ⟨h.of_get? hget, h⟩
  · exact ⟨hshort, h.put hshort []⟩

/-- A directory that is created has a short name; no other call makes one. -/
theorem perform (h : s.Short) (call : Call) : (s.perform call).2.Short := by
  have hchange : ∀ name filter change, (s.changeMany name filter change).2.Short := by
    intro name filter change
    rw [changeMany]
    split
    · exact h
    · exact h
    · next hopen =>
      split
      · exact h
      · exact h.put (h.of_get? (open?_eq_ok_iff.mp hopen).2) _
  cases call with
  | aggregate name stages => exact h
  | insertMany name docs =>
    rw [Store.perform, insertMany]
    split
    · exact h
    · next hcreate => exact (h.create hcreate).2.put (h.create hcreate).1 _
  | updateById name doc =>
    rw [Store.perform, updateById]
    split
    · exact h
    · next hcreate =>
      split
      · exact (h.create hcreate).2
      · exact (h.create hcreate).2.put (h.create hcreate).1 _
  | updateMany name filter set => exact hchange _ _ _
  | removeMany name filter => exact hchange _ _ _

end Short

/-- No store that is reached has a directory with a long name. -/
theorem Reached.short {s : Store} (h : s.Reached) : s.Short := by
  induction h with
  | empty => exact fun name hmem => absurd hmem List.not_mem_nil
  | perform call _ _ ih => exact ih.perform call

end Store

end DualStore
