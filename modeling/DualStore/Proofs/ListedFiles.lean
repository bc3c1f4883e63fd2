import Mathlib.Data.List.Pairwise
import DualStore.Proofs.HeldDocuments
import DualStore.Proofs.PipelineRuns

/-!
# Listing any directory

Whatever files lie in the directory of a collection, the identities are listed in ascending order,
each as often as some name gives it. But a name that gives an identity need not be the one that its
document is read from: with other spellings of an integer, an identity is listed without a file, or
its document is read several times and counted as often.

* `count_ids`, `length_ids`: how often an identity is listed;
* `strict_iff_namedByIds`: when every listed identity is listed once and has a file;
* `length_of_all`, `aggregate_count`: how many documents there are, and how many are counted;
* `listed_files`: the main statement;
* `other_spellings`: files whose names spell one identity twice, and one without a document.
-/

namespace DualStore.Collection

variable {files : Files}

/-! ## Listed identities -/

/-- An identity is listed once for each name that gives it. -/
theorem count_ids (files : Files) (id : Int) :
    (ids files).count id = (Keyed.keys files).countP fun name => idOfFile? name == some id := by
  rw [(ids_perm files).count_eq, List.count_filterMap]

theorem length_ids (files : Files) :
    (ids files).length = (Keyed.keys files).countP fun name => (idOfFile? name).isSome := by
  rw [(ids_perm files).length_eq, List.length_filterMap_eq_countP]

theorem read_eq_none_iff {id : Int} :
    read files id = .ok none ↔ fileName id ∉ Keyed.keys files := by
  rw [← Keyed.get?_eq_none_iff, read]
  cases Keyed.get? (fileName id) files with
  | none => simp
  | some text => cases hdoc : Document.ofText? text <;> simp [hdoc]

/-- Ascending identities without repetition are strictly ascending. -/
theorem strict_of_nodup (h : (ids files).Nodup) : (ids files).Pairwise (· < ·) :=
  ((pairwise_ids files).and h).imp fun ⟨hle, hne⟩ => Int.lt_iff_le_and_ne.mpr ⟨hle, hne⟩

/-- **The identities are listed strictly ascending, each with a file, exactly if every name that
gives an identity is the one that it is written under.** -/
theorem strict_iff_namedByIds (distinct : (Keyed.keys files).Nodup) :
    ((ids files).Pairwise (· < ·) ∧ ∀ id ∈ ids files, read files id ≠ .ok none)
      ↔ NamedByIds files := by
  constructor
  · rintro ⟨hstrict, hfound⟩ name hname id hid
    have hlisted : id ∈ ids files := mem_ids_iff.mpr ⟨name, hname, hid⟩
    have hwritten : fileName id ∈ Keyed.keys files :=
      Decidable.not_not.mp fun hmissing => hfound id hlisted (read_eq_none_iff.mpr hmissing)
    -- Two names that give the identity would list it twice.
    have honce : ((Keyed.keys files).filterMap idOfFile?).Nodup :=
      (ids_perm files).nodup_iff.mp (hstrict.imp fun hlt => Int.ne_of_lt hlt)
    have hapart := List.pairwise_filterMap.mp honce
    have : Std.Symm fun a b =>
        ∀ x, idOfFile? a = some x → ∀ y, idOfFile? b = some y → x ≠ y :=
      ⟨fun a b h x hx y hy hxy => h y hy x hx hxy.symm⟩
    by_contra hne
    exact hapart.forall hname hwritten hne id hid id
      (idOfFile?_fileName (fitsInt64_of_idOfFile? hid)) rfl
  · intro h
    refine ⟨strict_of_nodup (h.nodup_ids distinct), fun id hid hnone => ?_⟩
    exact read_eq_none_iff.mp hnone ((h.mem_ids id).mp hid).2

/-! ## Documents that are read -/

/-- All listed identities have a file if the names are those of the identities. -/
theorem NamedByIds.filter_ids (h : NamedByIds files) :
    ((ids files).filter fun id => Keyed.has (fileName id) files) = ids files :=
  List.filter_eq_self.mpr fun id hid =>
    (Keyed.has_iff_mem_keys _ _).mpr ((h.mem_ids id).mp hid).2

/-- There are as many documents as names that give an identity whose file is there. -/
theorem length_of_all {docs : List Document} (h : all files = .ok docs) :
    docs.length = (Keyed.keys files).countP fun name =>
      (idOfFile? name).any fun id => Keyed.has (fileName id) files := by
  rw [← (readAll_eq_ok_iff.mp h).length_eq, ← List.countP_eq_length_filter,
    (ids_perm files).countP_eq, List.countP_filterMap]
  congr 1
  funext name
  cases idOfFile? name <;> rfl

/-- Counting the documents of a collection counts what all of them are read as. -/
theorem aggregate_count {s : Store} {name : String} (hopen : s.open? name = .ok (some files))
    {docs : List Document} (h : all files = .ok docs) (field : String) :
    s.aggregate name [Document.operator "$count" (.str field)]
      = .ok (if docs.isEmpty then [] else [.obj [(field, .int docs.length)]]) := by
  rw [Store.aggregate, hopen]
  simp only [h, Document.run_cons (Document.ofJson_count field), Document.Stage.apply]
  cases docs with
  | nil => rfl
  | cons doc rest => simp [Except.bind, Document.run, Except.mapError]

/-- **What is listed, read and counted in a directory with any files.** The identities ascend, each
as often as names give it; without repetition and with a file each exactly if every name that gives
an identity is the one that it is written under. All documents are those of the listed identities
that have a file, in that order, so each is there once if the names are those of the identities; as
many are counted. -/
theorem listed_files (distinct : (Keyed.keys files).Nodup) :
    (ids files).Pairwise (· ≤ ·)
    ∧ (∀ id, (ids files).count id
        = (Keyed.keys files).countP fun name => idOfFile? name == some id)
    ∧ ((ids files).Pairwise (· < ·) ∧ (∀ id ∈ ids files, read files id ≠ .ok none)
        ↔ NamedByIds files)
    ∧ (∀ docs, all files = .ok docs
        ↔ List.Forall₂ (fun id doc => read files id = .ok (some doc))
          ((ids files).filter fun id => Keyed.has (fileName id) files) docs)
    ∧ ∀ docs, all files = .ok docs →
        (NamedByIds files → List.Forall₂ (fun id doc => read files id = .ok (some doc))
          (ids files) docs)
        ∧ (docs.length = (Keyed.keys files).countP fun name =>
          (idOfFile? name).any fun id => Keyed.has (fileName id) files)
        ∧ (NamedByIds files →
          docs.length = (Keyed.keys files).countP fun name => (idOfFile? name).isSome)
        ∧ ∀ (s : Store) (name field : String), s.open? name = .ok (some files) →
          s.aggregate name [Document.operator "$count" (.str field)]
            = .ok (if docs.isEmpty then [] else [.obj [(field, .int docs.length)]]) := by
  refine ⟨pairwise_ids files, count_ids files, strict_iff_namedByIds distinct,
    fun docs => readAll_eq_ok_iff, fun docs hall => ?_⟩
  have hread := readAll_eq_ok_iff.mp hall
  refine ⟨fun h => h.filter_ids ▸ hread, length_of_all hall, fun h => ?_,
    fun s name field hopen => aggregate_count hopen hall field⟩
  rw [← hread.length_eq, h.filter_ids, length_ids]

def noteFiles : Files :=
  [("12.json", "\x7b\"_id\":12\x7d"), ("x.json", "?"), ("5.json", "\x7b\"_id\":5\x7d"),
    ("5.txt", "five")]

theorem listed_files_notes :
    (Keyed.keys noteFiles).Nodup ∧ NamedByIds noteFiles
      ∧ (ids noteFiles).Pairwise (· < ·) ∧ (∀ id ∈ ids noteFiles, read noteFiles id ≠ .ok none)
      ∧ ∃ docs, all noteFiles = .ok docs ∧ docs.length = 2 := by
  have distinct : (Keyed.keys noteFiles).Nodup := by decide
  have named : NamedByIds noteFiles := by decide +kernel
  obtain ⟨-, -, hstrict, -, hdocs⟩ := listed_files distinct
  obtain ⟨hfound, hmissing⟩ := hstrict.mpr named
  refine ⟨distinct, named, hfound, hmissing, ?_⟩
  have hread : (match all noteFiles with | .ok _ => true | .error _ => false) = true := by
    decide +kernel
  split at hread
  · next docs hall =>
    refine ⟨docs, hall, ?_⟩
    rw [(hdocs docs hall).2.2.1 named]
    decide +kernel
  · cases hread

/-- An identity whose document has a second name, and one that has no document under its own. -/
def spelledFiles : Files :=
  [("5.json", "\x7b\"_id\":5\x7d"), ("05.json", "\x7b\"_id\":5\x7d"),
    ("+7.json", "\x7b\"_id\":7\x7d")]

/-- An identity is listed and its document counted twice, and one is listed that is not found. -/
theorem other_spellings :
    (Keyed.keys spelledFiles).Nodup ∧ ids spelledFiles = [5, 5, 7]
      ∧ ¬(ids spelledFiles).Pairwise (· < ·) ∧ read spelledFiles 7 = .ok none
      ∧ (all spelledFiles).toOption.map (List.map Document.id) = some [5, 5]
      ∧ ((Store.mk [("notes", spelledFiles)]).aggregate "notes"
          [Document.operator "$count" (.str "n")]).toOption.map (List.map Json.text)
        = some ["\x7b\"n\":2\x7d"] := by
  have hids : ids spelledFiles = [5, 5, 7] := by decide +kernel
  refine ⟨by decide, hids, by rw [hids]; decide, ?_, by decide +kernel, by decide +kernel⟩
  exact read_eq_none_iff.mpr (by decide +kernel)

end DualStore.Collection
