import DualStore.Proofs.FlushedOutboxes

/-!
# Identities behind saves that succeed

A save that succeeds has stored the identities of all its documents and has taken none out, and so
has a flush in which no collection failed. Nothing has to be known of calls that fail, because a
save fails with any of its calls.

* `KeepsDocuments`: what is assumed of the answers about documents;
* `Store.Gains`: a store with more identities than before;
* `Store.gains_insertMany`, `Store.gains_updateById`: calls that succeed;
* `gains_saveDocuments`, `gains_writeAll`, `gains_flush`: saves that succeed, and flushes;
* `Outbox.waitingIds`, `waitingIds_addAll`: the identities that wait in an outbox.
-/

namespace DualStore

open Collection (fileName)

/-! ## Identities of a store -/

namespace Store

def identities (s : Store) (name : String) : Set Int := {id | s.Has name id}

/-- Whether a store has identities beside those of an earlier one, and has lost none. -/
def Gains (before after : Store) (gained : String → Set Int) : Prop :=
  ∀ name, after.identities name = before.identities name ∪ gained name

variable {s between after : Store} {name : String} {files left : Collection.Files}

theorem Gains.nothing (s : Store) : s.Gains s fun _ => ∅ := fun _ => (Set.union_empty _).symm

theorem Gains.trans {gained more : String → Set Int} (h : s.Gains between gained)
    (hmore : between.Gains after more) : s.Gains after fun name => gained name ∪ more name :=
  fun name => by rw [hmore name, h name, Set.union_assoc]

theorem mem_keys_foldl_write (docs : List Document) (files : Collection.Files) (id : Int) :
    fileName id ∈ Keyed.keys (docs.foldl Collection.write files)
      ↔ fileName id ∈ Keyed.keys files ∨ id ∈ docs.map Document.id := by
  induction docs generalizing files with
  | nil => simp
  | cons doc rest ih =>
    have hname : fileName id = fileName doc.id ↔ id = doc.id :=
      ⟨Collection.fileName_inj, fun h => h ▸ rfl⟩
    rw [List.foldl_cons, ih, Collection.write, Keyed.mem_keys_put, hname, List.map_cons,
      List.mem_cons, or_right_comm, or_comm]

/-- A store gains the identities of documents that are written to a collection. -/
theorem gains_put (s : Store) (name : String) (docs : List Document) :
    s.Gains (s.put name (docs.foldl Collection.write (s.filesOf name)))
      fun other => {id | name = other ∧ id ∈ docs.map Document.id} := by
  intro other
  ext id
  by_cases h : name = other
  · subst h
    simp only [identities, Set.mem_ofPred_eq, Set.mem_union, Has, filesOf_put_self,
      mem_keys_foldl_write, true_and]
  · simp only [identities, Set.mem_ofPred_eq, Set.mem_union, Has, filesOf_put_of_ne h, h, false_and,
      or_false]

theorem insertAll_ok {docs : List Document} (h : insertAll files docs = (.ok (), left)) :
    left = docs.foldl Collection.write files := by
  induction docs generalizing files with
  | nil => exact (Prod.mk.inj h).2.symm
  | cons doc rest ih =>
    rw [insertAll] at h
    split at h
    · cases h
    · next hinsert =>
      obtain ⟨-, rfl⟩ := Collection.insert_eq_ok_iff.mp hinsert
      exact ih h

/-- An insert that succeeds has stored all its documents. -/
theorem gains_insertMany {docs : List Document} (h : s.insertMany name docs = (.ok (), after)) :
    s.Gains after fun other => {id | name = other ∧ id ∈ docs.map Document.id} := by
  rw [insertMany] at h
  split at h
  · cases h
  · next files created hcreate =>
    obtain ⟨rfl, hput⟩ := create_ok hcreate
    cases hinsert : insertAll (s.filesOf name) docs with
    | mk result left =>
      rw [hinsert] at h
      obtain ⟨rfl, rfl⟩ := Prod.mk.inj h
      rw [insertAll_ok hinsert, hput]
      exact gains_put s name docs

/-- An update that succeeds has stored its document. -/
theorem gains_updateById {doc : Document} (h : s.updateById name doc = (.ok (), after)) :
    s.Gains after fun other => {id | name = other ∧ id ∈ [doc].map Document.id} := by
  rw [updateById] at h
  split at h
  · cases h
  · next files created hcreate =>
    obtain ⟨rfl, hput⟩ := create_ok hcreate
    split at h
    · cases h
    · next left hreplace =>
      obtain ⟨-, rfl⟩ := Collection.replace_eq_ok_iff.mp hreplace
      obtain ⟨-, rfl⟩ := Prod.mk.inj h
      rw [hput]
      exact gains_put s name [doc]

end Store

/-! ## Saves -/

/-- What is assumed of the answers about documents, which come from the store that is seen by
`store`: a call that succeeds has been performed on it, and no other request changes it. Nothing is
assumed of calls that fail. -/
structure KeepsDocuments {σ : Type} (answer : (r : Request) → σ → r.Answer × σ)
    (store : σ → Store) : Prop where
  performed : ∀ (call : Call) (result : call.Result) (s after : σ),
    answer (.documents call) s = ((.ok result : call.Answer), after) →
    (store s).perform call = (.ok result, store after)
  opened : ∀ s, store (answer .openDocuments s).2 = store s
  elsewhere : ∀ r s, r.isDocumental = false → store (answer r s).2 = store s

variable {σ : Type} {answer : (r : Request) → σ → r.Answer × σ} {store : σ → Store} {s after : σ}

theorem KeepsDocuments.asked (documents : KeepsDocuments answer store) {call : Call}
    {result : call.Result} (h : Attempt.runWith answer (askStore call) s = (.ok result, after)) :
    (store s).perform call = (.ok result, store after) :=
  documents.performed call result s after (Attempt.mapError_fst_eq_ok.mp h)

namespace Document

theorem ids_putPending (doc : Document) (pending : List Document) :
    (putPending doc pending).map Document.id
      = if doc.id ∈ pending.map Document.id then pending.map Document.id
        else pending.map Document.id ++ [doc.id] := by
  induction pending with
  | nil => rfl
  | cons other rest ih =>
    rw [putPending]
    by_cases heq : other.id = doc.id
    · simp [heq]
    · simp only [if_neg heq, List.map_cons, ih, List.mem_cons, Ne.symm heq, false_or]
      split <;> rfl

theorem mem_ids_putPending {doc : Document} {pending : List Document} {id : Int} :
    id ∈ (putPending doc pending).map Document.id
      ↔ id = doc.id ∨ id ∈ pending.map Document.id := by
  rw [ids_putPending]
  split
  · next hmem => exact ⟨.inr, fun h => h.elim (fun heq => heq ▸ hmem) fun h => h⟩
  · rw [List.mem_append, List.mem_singleton, or_comm]

/-- A save that succeeds has stored the documents that waited and those that it was given, by
induction on the latter. -/
theorem gains_saveFrom (documents : KeepsDocuments answer store) {name : String}
    {pending docs : List Document}
    (h : Attempt.runWith answer (saveFrom name pending docs) s = (.ok (), after)) :
    (store s).Gains (store after)
      fun other => {id | name = other ∧ id ∈ (pending ++ docs).map Document.id} := by
  induction docs generalizing pending s with
  | nil =>
    rw [List.append_nil]
    cases pending with
    | nil =>
      obtain ⟨-, rfl⟩ := Prod.mk.inj h
      simpa using Store.Gains.nothing (store s)
    | cons doc others => exact Store.gains_insertMany (documents.asked h)
  | cons doc rest ih =>
    rw [saveFrom_cons] at h
    obtain ⟨found, between, hprobe, h⟩ := Attempt.runWith_bind_ok h
    have hprobed : store s = store between := (Prod.mk.inj (documents.asked hprobe)).2
    rw [hprobed]
    split at h
    · obtain ⟨_, updated, hupdate, h⟩ := Attempt.runWith_bind_ok h
      have hgains := (Store.gains_updateById (documents.asked hupdate)).trans (ih h)
      refine fun other => (hgains other).trans (congrArg _ (Set.ext fun id => ?_))
      simp only [Set.mem_union, Set.mem_ofPred_eq, ← and_or_left, List.map_append, List.map_cons,
        List.mem_append, List.mem_cons, List.map_nil, List.not_mem_nil, or_false]
      rw [or_left_comm]
    · refine fun other => (ih h other).trans (congrArg _ (Set.ext fun id => ?_))
      simp only [Set.mem_ofPred_eq, List.map_append, List.map_cons, List.mem_append, List.mem_cons,
        mem_ids_putPending]
      rw [or_assoc, or_left_comm]

/-- A save that succeeds has stored the identities of its documents. -/
theorem gains_saveDocuments (documents : KeepsDocuments answer store) {name : String}
    {docs : List Document}
    (h : Attempt.runWith answer (saveDocuments name docs) s = (.ok (), after)) :
    (store s).Gains (store after) fun other => {id | name = other ∧ id ∈ docs.map Document.id} :=
  gains_saveFrom documents h

end Document

/-! ## Flushes -/

namespace Outbox

/-- The identities of the documents in entries for a collection. -/
def waitingIds (entries : List (String × List Document)) (name : String) : Set Int :=
  {id | ∃ docs, (name, docs) ∈ entries ∧ id ∈ docs.map Document.id}

theorem waitingIds_nil : waitingIds [] = fun _ => ∅ := by
  funext name
  simp [waitingIds]

theorem waitingIds_cons (entry : String × List Document) (rest : List (String × List Document))
    (name : String) : waitingIds (entry :: rest) name
      = {id | entry.1 = name ∧ id ∈ entry.2.map Document.id} ∪ waitingIds rest name := by
  ext id
  simp only [waitingIds, Set.mem_union, Set.mem_ofPred_eq, List.mem_cons]
  constructor
  · rintro ⟨docs, rfl | hmem, hid⟩
    · exact .inl ⟨rfl, hid⟩
    · exact .inr ⟨docs, hmem, hid⟩
  · rintro (⟨rfl, hid⟩ | ⟨docs, hmem, hid⟩)
    · exact ⟨entry.2, .inl rfl, hid⟩
    · exact ⟨docs, .inr hmem, hid⟩

/-- When no collection fails, all documents of the entries are stored. -/
theorem gains_writeAll (documents : KeepsDocuments answer store)
    {entries : List (String × List Document)}
    (h : Work.runWith answer (writeAll entries) s = (0, after)) :
    (store s).Gains (store after) (waitingIds entries) := by
  induction entries generalizing s with
  | nil =>
    obtain ⟨-, rfl⟩ := Prod.mk.inj h
    rw [waitingIds_nil]
    exact Store.Gains.nothing (store s)
  | cons entry rest ih =>
    obtain ⟨name, docs⟩ := entry
    rw [writeAll, Work.runWith_bind, Work.runWith_bind] at h
    cases hsave : Work.runWith answer (Document.saveDocuments name docs).run s with
    | mk result between =>
      rw [hsave] at h
      cases hrest : Work.runWith answer (writeAll rest) between with
      | mk failed left =>
        rw [hrest] at h
        obtain ⟨hnone, rfl⟩ := Prod.mk.inj h
        cases result with
        | error e => exact absurd hnone (Nat.succ_ne_zero _)
        | ok _ =>
          obtain rfl : failed = 0 := hnone
          have hgains := (Document.gains_saveDocuments documents hsave).trans (ih hrest)
          intro other
          rw [waitingIds_cons]
          exact hgains other

/-- A flush in which no collection fails stores all documents that wait. -/
theorem gains_flush (documents : KeepsDocuments answer store) {o : Outbox}
    (h : Work.runWith answer o.flush s = (0, after)) :
    (store s).Gains (store after) (waitingIds o.pending) := by
  rw [flush, isEmpty] at h
  cases hpending : o.pending with
  | nil =>
    rw [hpending] at h
    obtain ⟨-, rfl⟩ := Prod.mk.inj h
    rw [waitingIds_nil]
    exact Store.Gains.nothing (store s)
  | cons entry rest =>
    rw [hpending, List.isEmpty_cons, if_neg Bool.false_ne_true, Work.runWith_bind] at h
    have hopened : store (Work.runWith answer askDocuments.run s).2 = store s := documents.opened s
    cases hopen : Work.runWith answer askDocuments.run s with
    | mk result between =>
      rw [hopen] at h hopened
      cases result with
      | error e => exact absurd (Prod.mk.inj h).1 (Nat.succ_ne_zero _)
      | ok _ =>
        rw [← hopened]
        exact gains_writeAll documents h

/-- The identities that wait in an outbox are those of the documents that were put in. -/
theorem waitingIds_addAll (queue : List (String × Document)) (name : String) :
    waitingIds (({} : Outbox).addAll queue).pending name
      = {id | ∃ doc, (name, doc) ∈ queue ∧ doc.id = id} := by
  ext id
  constructor
  · rintro ⟨docs, hentry, hid⟩
    obtain ⟨doc, hdoc, rfl⟩ := List.mem_map.mp hid
    have hdocs : docs = documentsFor name queue := eq_documentsFor_of_mem hentry
    exact ⟨doc, mem_documentsFor.mp (hdocs ▸ hdoc), rfl⟩
  · rintro ⟨doc, hdoc, rfl⟩
    have hwaits := mem_documentsFor.mpr hdoc
    rw [← get?_addAll] at hwaits
    cases hget : Keyed.get? name (({} : Outbox).addAll queue).pending with
    | none =>
      rw [hget] at hwaits
      exact absurd hwaits List.not_mem_nil
    | some docs =>
      rw [hget] at hwaits
      have hnodup := (isSorted_addAll (o := {}) List.Pairwise.nil queue).nodup
      exact ⟨docs, (Keyed.get?_eq_some_iff hnodup name docs).mp hget, List.mem_map_of_mem hwaits⟩

end Outbox

end DualStore
