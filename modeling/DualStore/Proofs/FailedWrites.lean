import DualStore.Proofs.StoreMaps

/-!
# Failed writes

A write of one document that fails leaves the store as it was, with one exception: a document that
is to be replaced in a collection that does not exist is not found, but the collection is created.

* `Collection.perform_error`, `within_error`: a request to a handle that fails;
* `Store.GainsEmpty`: a store with one more collection, which has no documents;
* `updateById_error`, `gainsEmpty_updateById`: a document that cannot be replaced;
* `failed_writes`: all of these, in every store.
-/

namespace DualStore

namespace Collection

/-- A request that fails changes no file. -/
theorem perform_error {files : Files} {request : Request} {e : StoreError}
    (h : (perform files request).1 = .error e) : (perform files request).2 = files := by
  have hchanged : ∀ result, (changed files result).1 = .error e →
      (changed files result).2 = files := by
    intro result hresult
    cases result with
    | ok after => cases hresult
    | error _ => rfl
  cases request with
  | insert doc => exact hchanged _ h
  | replace doc => exact hchanged _ h
  | delete id => exact hchanged _ h
  | _ => rfl

/-- The name of a collection begins with a letter or a digit. -/
theorem head?_of_checkName {name : String} (h : checkName name = .ok ()) :
    name.toList.head? ≠ some '.' ∧ name.toList.head? ≠ some '_' := by
  rw [checkName] at h
  split at h
  · cases h
  · next c rest hchars =>
    rw [hchars, List.head?_cons]
    split at h
    · cases h
    · next hunderscore =>
      split at h
      · next hall =>
        refine ⟨fun hpoint => ?_, fun heq => hunderscore (Option.some.inj heq)⟩
        rw [Option.some.inj hpoint] at hall
        have hpoint : Text.isAlphanumeric '.' = false := by decide
        simp [hpoint] at hall
      · cases h

end Collection

namespace Store

variable {s after : Store} {name : String} {doc : Document} {e : StoreError}

/-- The files of a collection, put once more, change nothing. -/
theorem put_of_get? {files : Collection.Files} (h : Keyed.get? name s.directories = some files) :
    s.put name files = s := by
  rw [put, Keyed.put_of_get? h]

/-- A request to the handle of a collection that fails changes nothing. -/
theorem within_error {request : Collection.Request}
    (h : s.operate (.within name request) = (.ok (some (.error e)), after)) : after = s := by
  rw [operate] at h
  split at h
  · cases h
  · cases h
  · next files hopen =>
    cases hperform : Collection.perform files request with
    | mk answer left =>
      rw [hperform] at h
      obtain ⟨hanswer, rfl⟩ := Prod.mk.inj h
      have hfailed : (Collection.perform files request).1 = .error e := by
        rw [hperform]
        exact Option.some.inj (Except.ok.inj hanswer)
      have hsame := Collection.perform_error hfailed
      rw [hperform] at hsame
      obtain rfl : left = files := hsame
      exact put_of_get? (open?_eq_ok_iff.mp hopen).2

/-- Whether a store has one more collection than an earlier one. It has no documents, and all others
are as they were. -/
structure GainsEmpty (before after : Store) (name : String) : Prop where
  missing : before.open? name = .ok none
  created : after.open? name = .ok (some [])
  listed : ∀ other, other ∈ after.collections ↔ other = name ∨ other ∈ before.collections
  files : ∀ other, after.filesOf other = before.filesOf other

theorem gainsEmpty_put (hname : Collection.checkName name = .ok ())
    (hget : Keyed.get? name s.directories = none) : s.GainsEmpty (s.put name []) name where
  missing := open?_eq_ok_iff.mpr ⟨hname, hget⟩
  created := open?_eq_ok_iff.mpr ⟨hname, Keyed.get?_put_self name [] s.directories⟩
  listed := by
    intro other
    have hhead := Collection.head?_of_checkName hname
    simp only [collections, (stableSort_perm _ _).mem_iff, List.mem_filter, put, Keyed.mem_keys_put,
      Bool.and_eq_true, decide_eq_true_eq]
    constructor
    · rintro ⟨rfl | hmem, hother⟩
      · exact .inl rfl
      · exact .inr ⟨hmem, hother⟩
    · rintro (rfl | ⟨hmem, hother⟩)
      · exact ⟨.inl rfl, hhead⟩
      · exact ⟨.inr hmem, hother⟩
  files := by
    intro other
    by_cases hother : name = other
    · subst hother
      rw [filesOf_put_self, filesOf, hget]
      rfl
    · exact filesOf_put_of_ne hother s []

/-- What is left of a store in which a document cannot be replaced. -/
theorem updateById_error (h : s.perform (.updateById name doc) = (.error e, after)) :
    (s.open? name ≠ .ok none ∨ e = .io) ∧ after = s
      ∨ e = .notFound doc.id ∧ s.GainsEmpty after name := by
  rw [perform, updateById] at h
  split at h
  · next hcreate =>
    obtain ⟨he, rfl⟩ := Prod.mk.inj h
    rw [Except.error.inj he] at hcreate
    obtain ⟨invalid, hname, -⟩ | ⟨-, -, -, rfl⟩ := create_eq_error_iff.mp hcreate
    · refine .inl ⟨.inl fun hopen => ?_, rfl⟩
      rw [(open?_eq_ok_iff.mp hopen).1] at hname
      cases hname
    · exact .inl ⟨.inr rfl, rfl⟩
  · next files created hcreate =>
    split at h
    · -- The document is not found, in a collection that was there or in one that was just made.
      next hreplace =>
      obtain ⟨he, rfl⟩ := Prod.mk.inj h
      obtain ⟨hname, ⟨hget, rfl⟩ | ⟨hget, -, rfl, rfl⟩⟩ := create_eq_ok_iff.mp hcreate
      · refine .inl ⟨.inl fun hopen => ?_, rfl⟩
        rw [(open?_eq_ok_iff.mp hopen).2] at hget
        cases hget
      · refine .inr ⟨?_, gainsEmpty_put hname hget⟩
        rw [← Except.error.inj he, ← Except.error.inj hreplace]
    · cases h

/-- **A write of one document that fails leaves the store as it was, unless a document is to be
replaced in a collection that does not exist.** Then the document is not found, and the store has
that collection, without documents. -/
theorem failed_writes (s : Store) (name : String) :
    (∀ doc e after, s.perform (.updateById name doc) = (.error e, after) →
      (s.open? name ≠ .ok none ∨ e = .io) ∧ after = s
        ∨ e = .notFound doc.id ∧ s.GainsEmpty after name)
      ∧ ∀ request e after,
        s.operate (.within name request) = (.ok (some (.error e)), after) → after = s :=
  ⟨fun _ _ _ => updateById_error, fun _ _ _ => within_error⟩

/-- A document that is to be replaced is not found, and its collection is listed from then on. -/
theorem missing_collection_created :
    ∃ after, Store.perform {} (.updateById "users" ⟨5, [("x", .int 1)]⟩)
        = (.error (.notFound 5), after)
      ∧ Store.collections {} = [] ∧ after.collections = ["users"] :=
  ⟨_, rfl, rfl, by decide⟩

end Store

end DualStore
