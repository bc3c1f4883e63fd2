import Mathlib.Data.List.Forall2
import DualStore.Proofs.KeyedEntries
import DualStore.Proofs.RequestLogs
import DualStore.Replication.Outbox

/-!
# What waits in an outbox

An outbox keeps the documents of each collection in the order in which they came, and each
collection once.

* `Outbox.waiting`: the documents of a collection;
* `Outbox.addAll`, `documentsFor`: documents put in one after the other, and those for a collection;
* `waiting_addAll`, `isSorted_addAll`, `mem_keys_addAll`: what waits behind them;
* `pushAll_isObject`: entities that are objects can all be put in;
* `asks_flush`: flushing only asks the document store.
-/

namespace DualStore

/-- The documents of a sequence that are for a collection, in order. -/
def documentsFor (collection : String) (queue : List (String × Document)) : List Document :=
  (queue.filter fun entry => entry.1 = collection).map Prod.snd

namespace Outbox

def waiting (o : Outbox) (collection : String) : List Document :=
  (Keyed.get? collection o.pending).getD []

/-- An outbox with documents put in one after the other, each with its collection. -/
def addAll (o : Outbox) (queue : List (String × Document)) : Outbox :=
  queue.foldl (fun o entry => o.add entry.1 entry.2) o

theorem addAll_append (o : Outbox) (queue more : List (String × Document)) :
    o.addAll (queue ++ more) = (o.addAll queue).addAll more :=
  List.foldl_append

theorem waiting_add (o : Outbox) (collection : String) (doc : Document) (other : String) :
    (o.add collection doc).waiting other
      = o.waiting other ++ documentsFor other [(collection, doc)] := by
  by_cases h : collection = other
  · subst h
    simp [waiting, add, Keyed.get?_putSorted_self, documentsFor]
  · simp [waiting, add, Keyed.get?_putSorted_of_ne h, documentsFor, h]

theorem waiting_addAll (o : Outbox) (queue : List (String × Document)) (collection : String) :
    (o.addAll queue).waiting collection
      = o.waiting collection ++ documentsFor collection queue := by
  induction queue generalizing o with
  | nil => simp [addAll, documentsFor]
  | cons entry rest ih =>
    have hsplit : documentsFor collection (entry :: rest)
        = documentsFor collection [entry] ++ documentsFor collection rest := by
      rw [documentsFor, documentsFor, documentsFor, ← List.map_append, ← List.filter_append]
      rfl
    rw [hsplit, ← List.append_assoc, ← waiting_add, ← ih]
    rfl

theorem isSorted_addAll {o : Outbox} (h : Keyed.IsSorted o.pending)
    (queue : List (String × Document)) : Keyed.IsSorted (o.addAll queue).pending := by
  induction queue generalizing o with
  | nil => exact h
  | cons entry rest ih => exact ih (Keyed.isSorted_putSorted h _ _)

/-- No collection stands in an outbox without a document. -/
theorem ne_nil_of_mem_addAll {o : Outbox} (h : ∀ e ∈ o.pending, e.2 ≠ [])
    (queue : List (String × Document)) : ∀ e ∈ (o.addAll queue).pending, e.2 ≠ [] := by
  induction queue generalizing o with
  | nil => exact h
  | cons entry rest ih =>
    have hadd : ∀ e ∈ (o.add entry.1 entry.2).pending, e.2 ≠ [] := by
      intro e he
      rcases Keyed.mem_putSorted he with rfl | he
      · exact List.append_ne_nil_of_right_ne_nil _ (List.cons_ne_nil _ _)
      · exact h e he
    exact ih hadd

theorem documentsFor_eq_nil_iff (collection : String) (queue : List (String × Document)) :
    documentsFor collection queue = [] ↔ collection ∉ queue.map Prod.fst := by
  rw [documentsFor, List.map_eq_nil_iff, List.filter_eq_nil_iff]
  simp only [decide_eq_true_eq, List.mem_map, not_exists, not_and]

/-- The collections of an outbox are those of the documents that were put in. -/
theorem mem_keys_addAll (queue : List (String × Document)) (collection : String) :
    collection ∈ Keyed.keys (({} : Outbox).addAll queue).pending ↔
      collection ∈ queue.map Prod.fst := by
  have hwaiting := waiting_addAll {} queue collection
  have hsorted := isSorted_addAll (o := {}) List.Pairwise.nil queue
  have hne := ne_nil_of_mem_addAll (o := {}) (by simp) queue
  have hnone : waiting {} collection = [] := rfl
  rw [hnone, List.nil_append] at hwaiting
  rw [← not_iff_not, ← documentsFor_eq_nil_iff, ← hwaiting, ← Keyed.get?_eq_none_iff, waiting]
  cases hget : Keyed.get? collection (({} : Outbox).addAll queue).pending with
  | none => simp
  | some docs =>
    have hdocs : docs ≠ [] := hne _ ((Keyed.get?_eq_some_iff hsorted.nodup _ _).mp hget)
    simp [hdocs]

/-- Whether a document is that of an entity, with the collection of its type. -/
def IsQueuedAs (written : Model.EntityType × Json) (entry : String × Document) : Prop :=
  ∃ m, written.1.checked = .ok m ∧ entry.1 = m.table
    ∧ Document.ofEntity m (written.1.identityOf written.2) written.2 = .ok entry.2

/-- Entities that are objects can all be put in. -/
theorem pushAll_isObject {t : Model.EntityType} {m : Model.EntityMeta} (hm : t.checked = .ok m)
    {entities : List Json} (h : ∀ e ∈ entities, ∃ fields, e = .obj fields) (o : Outbox) :
    ∃ queue, List.Forall₂ IsQueuedAs (entities.map (t, ·)) queue
      ∧ o.pushAll t m entities = (.ok (), o.addAll queue) := by
  induction entities generalizing o with
  | nil => exact ⟨[], .nil, rfl⟩
  | cons entity rest ih =>
    obtain ⟨⟨fields, rfl⟩, hrest⟩ := List.forall_mem_cons.mp h
    obtain ⟨doc, hdoc⟩ : ∃ doc, Document.ofEntity m (t.identityOf (.obj fields)) (.obj fields)
        = .ok doc := ⟨_, rfl⟩
    obtain ⟨queue, hqueue, hpush⟩ := ih hrest (o.add m.table doc)
    have hfirst : o.push m (t.identityOf (.obj fields)) (.obj fields)
        = .ok (o.add m.table doc) := by
      rw [push, hdoc]
      rfl
    refine ⟨(m.table, doc) :: queue, .cons ⟨m, hm, rfl, hdoc⟩ hqueue, ?_⟩
    rw [pushAll, hfirst]
    exact hpush

/-! ## Flushing -/

theorem asks_saveFrom (collection : String) (pending docs : List Document) :
    Work.Asks (fun r => r.isDocumental = true) (Document.saveFrom collection pending docs).run := by
  induction docs generalizing pending with
  | nil =>
    cases pending with
    | nil => exact trivial
    | cons doc others => exact ⟨rfl, fun _ => trivial⟩
  | cons doc rest ih =>
    refine Work.Asks.attempt ⟨rfl, fun _ => trivial⟩ fun found => ?_
    split
    · exact Work.Asks.attempt ⟨rfl, fun _ => trivial⟩ fun _ => ih pending
    · exact ih _

theorem asks_writeAll (entries : List (String × List Document)) :
    Work.Asks (fun r => r.isDocumental = true) (writeAll entries) := by
  induction entries with
  | nil => trivial
  | cons entry rest ih =>
    exact (asks_saveFrom entry.1 [] entry.2).bind fun result => ih.bind fun failed => trivial

/-- Flushing only asks the document store. -/
theorem asks_flush (o : Outbox) : Work.Asks (fun r => r.isDocumental = true) o.flush := by
  rw [flush]
  split
  · trivial
  · have hopen : Work.Asks (fun r => r.isDocumental = true) askDocuments.run :=
      ⟨rfl, fun _ => trivial⟩
    refine hopen.bind fun result => ?_
    cases result with
    | ok _ => exact asks_writeAll o.pending
    | error e => trivial

end Outbox

end DualStore
