import DualStore.Document.Basic
import Mathlib.Data.List.Nodup

/-!
# Maps from identities to fields

A finite map from identities to the fields of documents, kept as its documents in the order of the
identities.

* `IdMap`, `IdMap.find?`, `IdMap.put`, `IdMap.erase`: the maps;
* `find?_put_self`, `find?_put_of_ne`, `find?_erase_self`, `find?_erase_of_ne`: what the operations
  do to reading;
* `IdMap.putAll`, `IdMap.eraseAll`: several documents in order;
* `IdMap.newOnes`: the documents of a list before the first whose identity is taken.
-/

namespace DualStore

/-- A finite map from identities to fields: a document for each identity, in ascending order. -/
structure IdMap where
  documents : List Document
  ascending : documents.Pairwise fun a b => a.id < b.id

namespace IdMap

/-- The map without identities. -/
def empty : IdMap := ⟨[], .nil⟩

/-- The identities in ascending order. -/
def ids (m : IdMap) : List Int := m.documents.map Document.id

/-- The fields of an identity. -/
def find? (m : IdMap) (id : Int) : Option Fields :=
  (m.documents.find? fun doc => doc.id = id).map Document.fields

/-- Puts a document into a list in ascending order, in the place of the one with its identity. -/
def putInto (doc : Document) : List Document → List Document
  | [] => [doc]
  | other :: rest =>
    if doc.id < other.id then doc :: other :: rest
    else if doc.id = other.id then doc :: rest
    else other :: putInto doc rest

theorem nodup_ids (m : IdMap) : m.ids.Nodup := by
  rw [ids, List.Nodup, List.pairwise_map]
  exact m.ascending.imp fun hlt heq => absurd heq (Int.ne_of_lt hlt)

theorem nodup_documents (m : IdMap) : m.documents.Nodup := m.nodup_ids.of_map Document.id

/-- One document belongs to an identity. -/
theorem eq_of_id_eq {m : IdMap} {doc other : Document} (hdoc : doc ∈ m.documents)
    (hother : other ∈ m.documents) (h : doc.id = other.id) : doc = other :=
  List.inj_on_of_nodup_map m.nodup_ids hdoc hother h

/-! ## Reading -/

theorem find?_eq_some_iff {m : IdMap} {id : Int} {fields : Fields} :
    m.find? id = some fields ↔ (⟨id, fields⟩ : Document) ∈ m.documents := by
  rw [find?, Option.map_eq_some_iff]
  constructor
  · rintro ⟨doc, hdoc, rfl⟩
    have hid : doc.id = id := by simpa using List.find?_some hdoc
    rw [← hid]
    exact List.mem_of_find?_eq_some hdoc
  · intro hmem
    obtain ⟨doc, hdoc⟩ : ∃ doc, m.documents.find? (fun doc => doc.id = id) = some doc := by
      rw [← Option.isSome_iff_exists, List.find?_isSome]
      exact ⟨_, hmem, decide_eq_true rfl⟩
    have hid : doc.id = id := by simpa using List.find?_some hdoc
    refine ⟨doc, hdoc, ?_⟩
    rw [eq_of_id_eq (List.mem_of_find?_eq_some hdoc) hmem hid]

theorem mem_documents_iff {m : IdMap} {doc : Document} :
    doc ∈ m.documents ↔ m.find? doc.id = some doc.fields := find?_eq_some_iff.symm

theorem mem_ids_iff {m : IdMap} {id : Int} : id ∈ m.ids ↔ (m.find? id).isSome = true := by
  rw [ids, List.mem_map, Option.isSome_iff_exists]
  constructor
  · rintro ⟨doc, hdoc, rfl⟩
    exact ⟨doc.fields, mem_documents_iff.mp hdoc⟩
  · rintro ⟨fields, hfields⟩
    exact ⟨⟨id, fields⟩, find?_eq_some_iff.mp hfields, rfl⟩

theorem find?_eq_none_iff {m : IdMap} {id : Int} : m.find? id = none ↔ id ∉ m.ids := by
  rw [mem_ids_iff, Option.not_isSome_iff_eq_none]

/-! ## Putting a document -/

theorem mem_putInto {doc other : Document} {docs : List Document}
    (h : docs.Pairwise fun a b => a.id < b.id) :
    other ∈ putInto doc docs ↔ other = doc ∨ (other ∈ docs ∧ other.id ≠ doc.id) := by
  induction docs with
  | nil => simp [putInto]
  | cons first rest ih =>
    obtain ⟨hfirst, hrest⟩ := List.pairwise_cons.mp h
    rw [putInto]
    split
    · next hlt =>
      -- all identities behind are greater than that of the document
      have hne : ∀ d ∈ first :: rest, d.id ≠ doc.id := by
        intro d hd
        rcases List.mem_cons.mp hd with rfl | hd
        · omega
        · have := hfirst d hd
          omega
      rw [List.mem_cons, or_congr_right]
      exact (and_iff_left_of_imp (hne other)).symm
    · split
      · next heq =>
        rw [List.mem_cons, List.mem_cons]
        constructor
        · rintro (rfl | hmem)
          · exact .inl rfl
          · exact .inr ⟨.inr hmem, by have := hfirst other hmem; omega⟩
        · rintro (rfl | ⟨rfl | hmem, hne⟩)
          · exact .inl rfl
          · exact absurd heq.symm hne
          · exact .inr hmem
      · next hne =>
        rw [List.mem_cons, List.mem_cons, ih hrest]
        constructor
        · rintro (rfl | rfl | ⟨hmem, hid⟩)
          · exact .inr ⟨.inl rfl, fun heq => hne heq.symm⟩
          · exact .inl rfl
          · exact .inr ⟨.inr hmem, hid⟩
        · rintro (rfl | ⟨rfl | hmem, hid⟩)
          · exact .inr (.inl rfl)
          · exact .inl rfl
          · exact .inr (.inr ⟨hmem, hid⟩)

theorem ascending_putInto (doc : Document) {docs : List Document}
    (h : docs.Pairwise fun a b => a.id < b.id) :
    (putInto doc docs).Pairwise fun a b => a.id < b.id := by
  induction docs with
  | nil => exact List.pairwise_singleton _ _
  | cons first rest ih =>
    obtain ⟨hfirst, hrest⟩ := List.pairwise_cons.mp h
    rw [putInto]
    split
    · next hlt =>
      apply List.pairwise_cons.mpr ⟨_, h⟩
      intro other hother
      rcases List.mem_cons.mp hother with rfl | hother
      · exact hlt
      · exact Int.lt_trans hlt (hfirst other hother)
    · split
      · next heq =>
        apply List.pairwise_cons.mpr ⟨_, hrest⟩
        intro other hother
        rw [heq]
        exact hfirst other hother
      · next hlt hne =>
        apply List.pairwise_cons.mpr ⟨_, ih hrest⟩
        intro other hother
        rcases (mem_putInto hrest).mp hother with rfl | ⟨hother, -⟩
        · omega
        · exact hfirst other hother

/-- Gives the identity of a document its fields. -/
def put (m : IdMap) (doc : Document) : IdMap :=
  ⟨putInto doc m.documents, ascending_putInto doc m.ascending⟩

/-- Takes out an identity. -/
def erase (m : IdMap) (id : Int) : IdMap :=
  ⟨m.documents.filter fun doc => doc.id ≠ id, m.ascending.filter _⟩

theorem mem_put {m : IdMap} {doc other : Document} :
    other ∈ (m.put doc).documents ↔ other = doc ∨ (other ∈ m.documents ∧ other.id ≠ doc.id) :=
  mem_putInto m.ascending

theorem mem_erase {m : IdMap} {id : Int} {doc : Document} :
    doc ∈ (m.erase id).documents ↔ doc ∈ m.documents ∧ doc.id ≠ id := by
  rw [erase, List.mem_filter, decide_eq_true_iff]

theorem find?_put_self (m : IdMap) (doc : Document) : (m.put doc).find? doc.id = some doc.fields :=
  mem_documents_iff.mp (mem_put.mpr (.inl rfl))

theorem find?_put_of_ne (m : IdMap) {doc : Document} {id : Int} (h : id ≠ doc.id) :
    (m.put doc).find? id = m.find? id := by
  apply Option.ext
  intro fields
  rw [find?_eq_some_iff, find?_eq_some_iff, mem_put]
  constructor
  · rintro (rfl | ⟨hmem, -⟩)
    · exact absurd rfl h
    · exact hmem
  · intro hmem
    exact .inr ⟨hmem, h⟩

theorem find?_erase_self (m : IdMap) (id : Int) : (m.erase id).find? id = none := by
  rw [find?_eq_none_iff, ids, List.mem_map]
  rintro ⟨doc, hdoc, rfl⟩
  exact (mem_erase.mp hdoc).2 rfl

theorem find?_erase_of_ne (m : IdMap) {id other : Int} (h : other ≠ id) :
    (m.erase id).find? other = m.find? other := by
  apply Option.ext
  intro fields
  rw [find?_eq_some_iff, find?_eq_some_iff, mem_erase]
  exact and_iff_left h

theorem mem_ids_put {m : IdMap} {doc : Document} {id : Int} :
    id ∈ (m.put doc).ids ↔ id = doc.id ∨ id ∈ m.ids := by
  by_cases hid : id = doc.id
  · rw [hid, mem_ids_iff, find?_put_self]
    exact iff_of_true rfl (.inl rfl)
  · rw [mem_ids_iff, find?_put_of_ne m hid, ← mem_ids_iff]
    exact (or_iff_right hid).symm

theorem mem_ids_erase {m : IdMap} {id other : Int} :
    other ∈ (m.erase id).ids ↔ other ∈ m.ids ∧ other ≠ id := by
  by_cases hid : other = id
  · rw [hid, mem_ids_iff, find?_erase_self]
    exact iff_of_false (by simp) (by simp)
  · rw [mem_ids_iff, find?_erase_of_ne m hid, mem_ids_iff]
    exact (and_iff_left hid).symm

/-! ## Several documents -/

/-- Puts documents in order. -/
def putAll (m : IdMap) (docs : List Document) : IdMap := docs.foldl put m

/-- Takes out identities. -/
def eraseAll (m : IdMap) (ids : List Int) : IdMap := ids.foldl erase m

/-- The documents of a list before the first whose identity is taken, be it by the ones that are
given or by an earlier document of the list. -/
def newOnes (taken : List Int) : List Document → List Document
  | [] => []
  | doc :: rest => if doc.id ∈ taken then [] else doc :: newOnes (doc.id :: taken) rest

end IdMap

end DualStore
