import DualStore.Proofs.CollectionLaws
import DualStore.Proofs.WrittenDocuments

/-!
# Stores as maps of maps

A store stands for a map that gives each created collection a map from identities to fields. Any
sequence of calls and of operations on single collections, started at the empty store, is answered
as by the maps.

* `Operation`, `Store.operate`, `Store.operateAll`: what is asked of a store, once and in order;
* `MapStore`, `MapStore.operate`, `MapStore.operateAll`: what the maps answer;
* `Store.Represents`, `Represents.operate`: a store that stands for maps answers as they do;
* `Store.Lawful`: what the collections show, and what an operation leaves alone;
* `answers_as_maps`: every sequence of operations.
-/

namespace DualStore

def Call.collection : Call → String
  | .aggregate name _ => name
  | .insertMany name _ => name
  | .updateById name _ => name
  | .updateMany name _ _ => name
  | .removeMany name _ => name

/-- Whether the texts of all values that a call writes are read as the values themselves. -/
def Call.Faithful : Call → Prop
  | .aggregate _ _ => True
  | .insertMany _ docs => ∀ doc ∈ docs, doc.Faithful
  | .updateById _ doc => doc.Faithful
  | .updateMany _ _ set => ∀ field ∈ set, field.2.Faithful
  | .removeMany _ _ => True

/-- What is asked of a store: a call of a session, whether a collection is there, a collection that
is created if it is not, or a request to the handle of a collection. A handle stays good, since no
operation removes a collection. -/
inductive Operation where
  | call (call : Call)
  | open? (name : String)
  | create (name : String)
  | within (name : String) (request : Collection.Request)

namespace Operation

def collection : Operation → String
  | .call asked => asked.collection
  | .open? name => name
  | .create name => name
  | .within name _ => name

/-- The type of what is found or done. There is no answer from a collection that does not exist,
because there is no handle of it. -/
def Result : Operation → Type
  | .call asked => asked.Result
  | .open? _ => Bool
  | .create _ => Unit
  | .within _ request => Option request.Answer

abbrev Answer (operation : Operation) : Type := Except StoreError operation.Result

/-- Whether the texts of all values that are written are read as the values themselves. -/
def Faithful : Operation → Prop
  | .call asked => asked.Faithful
  | .open? _ => True
  | .create _ => True
  | .within _ request => request.Faithful

end Operation

/-! ## Stores -/

namespace Store

/-- The answer of a store, and the store afterwards. -/
def operate (s : Store) : (operation : Operation) → operation.Answer × Store
  | .call call => s.perform call
  | .open? name => ((s.open? name).map Option.isSome, s)
  | .create name =>
    match s.create name with
    | .error e => (.error e, s)
    | .ok (_, s) => (.ok (), s)
  | .within name request =>
    match s.open? name with
    | .error e => (.error e, s)
    | .ok none => (.ok none, s)
    | .ok (some files) =>
      match Collection.perform files request with
      | (answer, files) => (.ok (some answer), s.put name files)

/-- The answers to operations in order, and the store behind them. -/
def operateAll (s : Store) :
    List Operation → List (Σ operation : Operation, operation.Answer) × Store
  | [] => ([], s)
  | operation :: rest =>
    match s.operate operation with
    | (answer, s) =>
      match s.operateAll rest with
      | (answers, s) => (⟨operation, answer⟩ :: answers, s)

end Store

/-! ## Maps of maps -/

/-- For each collection that was created its map. -/
structure MapStore where
  map? : String → Option IdMap := fun _ => none

namespace MapStore

def put (s : MapStore) (name : String) (m : IdMap) : MapStore :=
  ⟨fun other => if other = name then some m else s.map? other⟩

/-- The map of a collection, if it was created. -/
def open? (s : MapStore) (name : String) : Except StoreError (Option IdMap) :=
  match Collection.checkName name with
  | .error e => .error (.invalidName e)
  | .ok _ => .ok (s.map? name)

/-- The map of a collection that may be created; a directory cannot have a longer name than the
file system allows. -/
def create (s : MapStore) (name : String) : Except StoreError IdMap :=
  match s.open? name with
  | .error e => .error e
  | .ok (some m) => .ok m
  | .ok none => if Store.maxNameBytes < name.utf8ByteSize then .error .io else .ok .empty

/-- Changes the documents of a collection that satisfy a filter, and counts them. -/
def changeMany (s : MapStore) (name : String) (filter : Fields)
    (change : IdMap → List Document → IdMap) : Except StoreError Nat × MapStore :=
  match s.open? name with
  | .error e => (.error e, s)
  | .ok none => (.ok 0, s)
  | .ok (some m) =>
    match Store.hits filter m.documents with
    | .error e => (.error e, s)
    | .ok docs => (.ok docs.length, s.put name (change m docs))

def perform (s : MapStore) : (call : Call) → call.Answer × MapStore
  | .aggregate name stages =>
    match s.open? name with
    | .error e => (.error e, s)
    | .ok found =>
      let docs := (found.getD .empty).documents.map Document.toJson
      ((Document.run docs stages).mapError .pipeline, s)
  | .insertMany name docs =>
    match s.create name with
    | .error e => (.error e, s)
    | .ok m =>
      match m.insertMany docs with
      | (answer, m) => (answer, s.put name m)
  | .updateById name doc =>
    match s.create name with
    | .error e => (.error e, s)
    | .ok m =>
      if doc.id ∈ m.ids then (.ok (), s.put name (m.put doc))
      else (.error (.notFound doc.id), s.put name m)
  | .updateMany name filter set =>
    s.changeMany name filter fun m docs => m.putAll (docs.map fun doc => doc.setAll set)
  | .removeMany name filter =>
    s.changeMany name filter fun m docs => m.eraseAll (docs.map Document.id)

/-- The answer of the maps, and the maps afterwards. -/
def operate (s : MapStore) : (operation : Operation) → operation.Answer × MapStore
  | .call call => s.perform call
  | .open? name => ((s.open? name).map Option.isSome, s)
  | .create name =>
    match s.create name with
    | .error e => (.error e, s)
    | .ok m => (.ok (), s.put name m)
  | .within name request =>
    match s.open? name with
    | .error e => (.error e, s)
    | .ok none => (.ok none, s)
    | .ok (some m) =>
      match m.perform request with
      | (answer, m) => (.ok (some answer), s.put name m)

/-- The answers to operations in order, and the maps behind them. -/
def operateAll (s : MapStore) :
    List Operation → List (Σ operation : Operation, operation.Answer) × MapStore
  | [] => ([], s)
  | operation :: rest =>
    match s.operate operation with
    | (answer, s) =>
      match s.operateAll rest with
      | (answers, s) => (⟨operation, answer⟩ :: answers, s)

end MapStore

namespace Store

/-! ## A store that stands for maps -/

/-- Whether the files of every collection are those of its map, and no other collection exists. -/
def Represents (s : Store) (maps : MapStore) : Prop :=
  ∀ name, Option.Rel Collection.Represents (Keyed.get? name s.directories) (maps.map? name)

namespace Represents

variable {s : Store} {maps : MapStore} {name : String}

theorem empty : Represents {} {} := fun _ => .none

theorem put (h : s.Represents maps) {files : Collection.Files} {m : IdMap}
    (hfiles : Collection.Represents files m) : (s.put name files).Represents (maps.put name m) := by
  intro other
  by_cases hother : other = name
  · subst hother
    simp only [Store.put, Keyed.get?_put_self, MapStore.put, if_pos]
    exact .some hfiles
  · simp only [Store.put, Keyed.get?_put_of_ne (Ne.symm hother), MapStore.put, if_neg hother]
    exact h other

/-- The files that are put for a collection take the place of those put before. -/
theorem put_put (h : s.Represents maps) {earlier files : Collection.Files} {m : IdMap}
    (hfiles : Collection.Represents files m) :
    ((s.put name earlier).put name files).Represents (maps.put name m) := by
  rw [Store.put_put]
  exact h.put hfiles

/-- What is found under a name: an error, no collection, or one that stands for its map. -/
theorem open_cases (h : s.Represents maps) (name : String) :
    (∃ e, s.open? name = .error e ∧ maps.open? name = .error e)
      ∨ (s.open? name = .ok none ∧ maps.open? name = .ok none)
      ∨ ∃ files m, s.open? name = .ok (some files) ∧ maps.open? name = .ok (some m)
          ∧ Collection.Represents files m := by
  rw [Store.open?, MapStore.open?]
  cases Collection.checkName name with
  | error e => exact .inl ⟨_, rfl, rfl⟩
  | ok _ =>
    have hname := h name
    generalize Keyed.get? name s.directories = found at hname
    generalize maps.map? name = known at hname
    cases hname with
    | none => exact .inr (.inl ⟨rfl, rfl⟩)
    | some hfiles => exact .inr (.inr ⟨_, _, rfl, rfl, hfiles⟩)

/-- What becomes of a collection that may be created: an error, or files that stand for its map, in
a store in which only they may be new. -/
theorem create_cases (h : s.Represents maps) (name : String) :
    (∃ e, s.create name = .error e ∧ maps.create name = .error e)
      ∨ ∃ files created m, s.create name = .ok (files, created) ∧ maps.create name = .ok m
          ∧ Collection.Represents files m ∧ created.Represents (maps.put name m)
          ∧ ∀ after n, Collection.Represents after n →
              (created.put name after).Represents (maps.put name n) := by
  rw [Store.create, MapStore.create, MapStore.open?]
  cases Collection.checkName name with
  | error e => exact .inl ⟨_, rfl, rfl⟩
  | ok _ =>
    have hname := h name
    generalize hfound : Keyed.get? name s.directories = found at hname
    generalize hknown : maps.map? name = known at hname
    cases hname with
    | none =>
      dsimp only
      split
      · exact .inl ⟨_, rfl, rfl⟩
      · refine .inr ⟨[], s.put name [], .empty, rfl, rfl, Collection.represents_empty, ?_, ?_⟩
        · exact h.put Collection.represents_empty
        · exact fun after n hafter => h.put_put hafter
    | some hfiles =>
      refine .inr ⟨_, s, _, rfl, rfl, hfiles, ?_, fun after n hafter => h.put hafter⟩
      intro other
      by_cases hother : other = name
      · subst hother
        simp only [MapStore.put, if_pos]
        rw [hfound]
        exact .some hfiles
      · simp only [MapStore.put, if_neg hother]
        exact h other

/-- A change of the documents that satisfy a filter. -/
theorem changeMany (h : s.Represents maps) (filter : Fields)
    {change : Collection.Files → List Document → Nat × Collection.Files}
    {changeMap : IdMap → List Document → IdMap}
    (hchange : ∀ {files m docs}, Collection.Represents files m → docs.Sublist m.documents →
      (change files docs).1 = docs.length
        ∧ Collection.Represents (change files docs).2 (changeMap m docs)) :
    (s.changeMany name filter change).1 = (maps.changeMany name filter changeMap).1
      ∧ (s.changeMany name filter change).2.Represents
          (maps.changeMany name filter changeMap).2 := by
  rw [Store.changeMany, MapStore.changeMany]
  obtain ⟨e, hs, hmaps⟩ | ⟨hs, hmaps⟩ | ⟨files, m, hs, hmaps, hfiles⟩ := h.open_cases name
  · rw [hs, hmaps]
    exact ⟨rfl, h⟩
  · rw [hs, hmaps]
    exact ⟨rfl, h⟩
  · rw [hs, hmaps]
    dsimp only
    rw [matching, hfiles.all_eq]
    dsimp only
    cases hhits : hits filter m.documents with
    | error e => exact ⟨rfl, h⟩
    | ok docs =>
      obtain ⟨hcount, hafter⟩ := hchange hfiles (hits_sublist hhits)
      exact ⟨congrArg Except.ok hcount, h.put hafter⟩

/-- A call is answered as by the maps. -/
theorem perform (h : s.Represents maps) {call : Call} (hcall : call.Faithful) :
    (s.perform call).1 = (maps.perform call).1
      ∧ (s.perform call).2.Represents (maps.perform call).2 := by
  cases call with
  | aggregate name stages =>
    rw [Store.perform, MapStore.perform, aggregate]
    obtain ⟨e, hs, hmaps⟩ | ⟨hs, hmaps⟩ | ⟨files, m, hs, hmaps, hfiles⟩ := h.open_cases name
    · rw [hs, hmaps]
      exact ⟨rfl, h⟩
    · rw [hs, hmaps]
      exact ⟨rfl, h⟩
    · rw [hs, hmaps]
      dsimp only
      rw [hfiles.all_eq]
      exact ⟨rfl, h⟩
  | insertMany name docs =>
    rw [Store.perform, MapStore.perform, insertMany]
    obtain ⟨e, hs, hmaps⟩ | ⟨files, created, m, hs, hmaps, hfiles, -, hput⟩ := h.create_cases name
    · rw [hs, hmaps]
      exact ⟨rfl, h⟩
    · obtain ⟨hanswer, hafter⟩ := insertAll_eq_insertMany hfiles hcall
      rw [hs, hmaps]
      exact ⟨hanswer, hput _ _ hafter⟩
  | updateById name doc =>
    rw [Store.perform, MapStore.perform, updateById]
    obtain ⟨e, hs, hmaps⟩ | ⟨files, created, m, hs, hmaps, hfiles, hcreated, hput⟩ :=
      h.create_cases name
    · rw [hs, hmaps]
      exact ⟨rfl, h⟩
    · rw [hs, hmaps]
      dsimp only
      rw [Collection.replace]
      by_cases hmem : doc.id ∈ m.ids
      · rw [if_pos ((hfiles.has_fileName _).mpr hmem), if_pos hmem]
        exact ⟨rfl, hput _ _ (hfiles.write hcall)⟩
      · rw [if_neg (mt (hfiles.has_fileName _).mp hmem), if_neg hmem]
        exact ⟨rfl, hcreated⟩
  | updateMany name filter set =>
    apply h.changeMany filter
    intro files m docs hfiles hdocs
    apply setAll_eq_putAll hfiles hcall
    intro doc hdoc
    exact ⟨hfiles.faithful doc (hdocs.subset hdoc), List.mem_map_of_mem (hdocs.subset hdoc)⟩
  | removeMany name filter =>
    apply h.changeMany filter
    intro files m docs hfiles hdocs
    apply deleteAll_eq_eraseAll hfiles (m.nodup_ids.sublist (hdocs.map Document.id))
    intro doc hdoc
    exact List.mem_map_of_mem (hdocs.subset hdoc)

/-- **An operation is answered as by the maps, and the store stands for the maps behind it.** -/
theorem operate (h : s.Represents maps) {operation : Operation} (hfaithful : operation.Faithful) :
    (s.operate operation).1 = (maps.operate operation).1
      ∧ (s.operate operation).2.Represents (maps.operate operation).2 := by
  cases operation with
  | call asked => exact h.perform hfaithful
  | open? name =>
    rw [Store.operate, MapStore.operate]
    obtain ⟨e, hs, hmaps⟩ | ⟨hs, hmaps⟩ | ⟨files, m, hs, hmaps, -⟩ := h.open_cases name
    all_goals
      rw [hs, hmaps]
      exact ⟨rfl, h⟩
  | create name =>
    rw [Store.operate, MapStore.operate]
    obtain ⟨e, hs, hmaps⟩ | ⟨files, created, m, hs, hmaps, -, hcreated, -⟩ := h.create_cases name
    · rw [hs, hmaps]
      exact ⟨rfl, h⟩
    · rw [hs, hmaps]
      exact ⟨rfl, hcreated⟩
  | within name request =>
    rw [Store.operate, MapStore.operate]
    obtain ⟨e, hs, hmaps⟩ | ⟨hs, hmaps⟩ | ⟨files, m, hs, hmaps, hfiles⟩ := h.open_cases name
    · rw [hs, hmaps]
      exact ⟨rfl, h⟩
    · rw [hs, hmaps]
      exact ⟨rfl, h⟩
    · obtain ⟨hanswer, hafter⟩ := hfiles.perform hfaithful
      rw [hs, hmaps]
      exact ⟨congrArg (Except.ok ∘ some) hanswer, h.put hafter⟩

/-- Operations in order are answered as by the maps. -/
theorem operateAll (h : s.Represents maps) {operations : List Operation}
    (hfaithful : ∀ operation ∈ operations, operation.Faithful) :
    (s.operateAll operations).1 = (maps.operateAll operations).1
      ∧ (s.operateAll operations).2.Represents (maps.operateAll operations).2 := by
  induction operations generalizing s maps with
  | nil => exact ⟨rfl, h⟩
  | cons operation rest ih =>
    obtain ⟨hfirst, hrest⟩ := List.forall_mem_cons.mp hfaithful
    obtain ⟨hanswer, hafter⟩ := h.operate hfirst
    obtain ⟨hanswers, hlast⟩ := ih hafter hrest
    refine ⟨?_, hlast⟩
    rw [Store.operateAll, MapStore.operateAll]
    dsimp only
    rw [hanswer, hanswers]

theorem files_of_get? (h : s.Represents maps) {files : Collection.Files}
    (hget : Keyed.get? name s.directories = some files) :
    ∃ m, Collection.Represents files m := by
  have hname := h name
  rw [hget] at hname
  generalize maps.map? name = known at hname
  cases hname with
  | some hfiles => exact ⟨_, hfiles⟩

theorem filesOf (h : s.Represents maps) (name : String) :
    ∃ m, Collection.Represents (s.filesOf name) m := by
  rw [Store.filesOf]
  cases hget : Keyed.get? name s.directories with
  | none => exact ⟨.empty, Collection.represents_empty⟩
  | some files => exact h.files_of_get? hget

end Represents

/-! ## What an operation leaves alone -/

variable (s : Store)

/-- A name that cannot be that of a collection changes nothing. -/
theorem operate_invalid {operation : Operation} {e : NameError}
    (h : Collection.checkName operation.collection = .error e) :
    s.operate operation = (.error (.invalidName e), s) := by
  have hopen : ∀ name, Collection.checkName name = .error e →
      s.open? name = .error (.invalidName e) := by
    intro name hname
    rw [Store.open?, hname]
  have hcreate : ∀ name, Collection.checkName name = .error e →
      s.create name = .error (.invalidName e) := by
    intro name hname
    rw [Store.create, hname]
  cases operation with
  | call asked =>
    cases asked with
    | aggregate name stages =>
      rw [operate, perform, aggregate, hopen name h]
      rfl
    | insertMany name docs =>
      rw [operate, perform, insertMany, hcreate name h]
      rfl
    | updateById name doc =>
      rw [operate, perform, updateById, hcreate name h]
      rfl
    | updateMany name filter set =>
      rw [operate, perform, changeMany, hopen name h]
      rfl
    | removeMany name filter =>
      rw [operate, perform, changeMany, hopen name h]
      rfl
  | open? name =>
    rw [operate, hopen name h]
    rfl
  | create name => rw [operate, hcreate name h]
  | within name request => rw [operate, hopen name h]

section Others

variable {s} {name other : String}

theorem get?_put_of_ne (h : other ≠ name) (files : Collection.Files) :
    Keyed.get? other (s.put name files).directories = Keyed.get? other s.directories :=
  Keyed.get?_put_of_ne (Ne.symm h) files s.directories

theorem get?_create_of_ne (h : other ≠ name) {files : Collection.Files} {created : Store}
    (hcreate : s.create name = .ok (files, created)) :
    Keyed.get? other created.directories = Keyed.get? other s.directories := by
  obtain ⟨-, ⟨-, rfl⟩ | ⟨-, -, -, rfl⟩⟩ := create_eq_ok_iff.mp hcreate
  · rfl
  · exact get?_put_of_ne h []

theorem get?_changeMany_of_ne (h : other ≠ name) (filter : Fields)
    (change : Collection.Files → List Document → Nat × Collection.Files) :
    Keyed.get? other (s.changeMany name filter change).2.directories
      = Keyed.get? other s.directories := by
  rw [changeMany]
  split
  · rfl
  · rfl
  · split
    · rfl
    · exact get?_put_of_ne h _

theorem get?_perform_of_ne {call : Call} (h : other ≠ call.collection) :
    Keyed.get? other (s.perform call).2.directories = Keyed.get? other s.directories := by
  cases call with
  | aggregate name stages => rfl
  | insertMany name docs =>
    rw [perform, insertMany]
    split
    · rfl
    · next hcreate => exact (get?_put_of_ne h _).trans (get?_create_of_ne h hcreate)
  | updateById name doc =>
    rw [perform, updateById]
    split
    · rfl
    · next hcreate =>
      split
      · exact get?_create_of_ne h hcreate
      · exact (get?_put_of_ne h _).trans (get?_create_of_ne h hcreate)
  | updateMany name filter set => exact get?_changeMany_of_ne h filter _
  | removeMany name filter => exact get?_changeMany_of_ne h filter _

/-- An operation leaves the other collections as they are. -/
theorem get?_operate_of_ne {operation : Operation} (h : other ≠ operation.collection) :
    Keyed.get? other (s.operate operation).2.directories = Keyed.get? other s.directories := by
  cases operation with
  | call asked => exact get?_perform_of_ne h
  | open? name => rfl
  | create name =>
    rw [operate]
    split
    · rfl
    · next hcreate => exact get?_create_of_ne h hcreate
  | within name request =>
    rw [operate]
    split
    · rfl
    · rfl
    · exact get?_put_of_ne h _

end Others

/-! ## Laws -/

/-- The laws of a store that stands for maps. -/
structure Lawful : Prop where
  collections : ∀ name files, Keyed.get? name s.directories = some files →
    Collection.Lawful files
  /-- If documents cannot all be inserted, then exactly those are that stand before the first whose
  identity is taken, by a document of the collection or by one of the list. -/
  insertMany : ∀ name docs id, (∀ doc ∈ docs, doc.Faithful) →
    (s.insertMany name docs).1 = .error (.duplicateId id) →
    ∃ before doc rest, docs = before ++ doc :: rest ∧ doc.id = id
      ∧ s.insertMany name before = (.ok (), (s.insertMany name docs).2)
      ∧ (before.map Document.id).Nodup
      ∧ (∀ other ∈ before, other.id ∉ Collection.ids (s.filesOf name))
      ∧ (id ∈ Collection.ids (s.filesOf name) ∨ id ∈ before.map Document.id)
  rejected : ∀ operation e, Collection.checkName operation.collection = .error e →
    s.operate operation = (.error (.invalidName e), s)
  apart : ∀ operation other, other ≠ operation.collection →
    Keyed.get? other (s.operate operation).2.directories = Keyed.get? other s.directories

variable {s}

/-- **The laws hold of every store that stands for maps.** -/
theorem Represents.lawful {maps : MapStore} (h : s.Represents maps) : s.Lawful where
  collections := by
    intro name files hget
    obtain ⟨m, hfiles⟩ := h.files_of_get? hget
    exact hfiles.lawful
  insertMany := by
    intro name docs id hdocs herror
    cases hcreate : s.create name with
    | error e =>
      rw [Store.insertMany, hcreate] at herror
      rw [Except.error.inj herror] at hcreate
      obtain ⟨_, -, he⟩ | ⟨-, -, -, he⟩ := create_eq_error_iff.mp hcreate <;> cases he
    | ok opened =>
      obtain ⟨files, created⟩ := opened
      obtain rfl := (create_ok hcreate).1
      obtain ⟨m, hfiles⟩ := h.filesOf name
      have hmany : ∀ docs, s.insertMany name docs = ((insertAll (s.filesOf name) docs).1,
          created.put name (insertAll (s.filesOf name) docs).2) := by
        intro docs
        rw [Store.insertMany, hcreate]
      rw [hmany] at herror ⊢
      obtain ⟨before, doc, rest, hsplit, he, hbefore, hnodup, hnew, htaken⟩ :=
        exists_of_insertAll hfiles hdocs herror
      obtain rfl := StoreError.duplicateId.inj he
      refine ⟨before, doc, rest, hsplit, rfl, ?_, hnodup, hnew, htaken⟩
      rw [hmany, hbefore]
  rejected := fun _ _ hname => operate_invalid s hname
  apart := fun _ _ hne => get?_operate_of_ne hne

/-- **Any sequence of operations, started at the empty store, is answered as by maps from
identities to fields. The store stands for the maps, and its collections keep the laws.** -/
theorem answers_as_maps (operations : List Operation)
    (h : ∀ operation ∈ operations, operation.Faithful) :
    (operateAll {} operations).1 = (MapStore.operateAll {} operations).1
      ∧ (operateAll {} operations).2.Represents (MapStore.operateAll {} operations).2
      ∧ (operateAll {} operations).2.Lawful := by
  obtain ⟨hanswers, hstore⟩ := Represents.empty.operateAll h
  exact ⟨hanswers, hstore, hstore.lawful⟩

/-- Operations on a collection with the least and the greatest identity: one document is inserted
twice, one that is missing is deleted, and a name is none of a collection. -/
def userOperations : List Operation :=
  [.create "users",
    .within "users" (.insert ⟨-9223372036854775808, [("name", .str "Ali")]⟩),
    .call (.insertMany "users" [⟨9223372036854775807, []⟩, ⟨7, [("age", .int 30)]⟩, ⟨7, []⟩]),
    .call (.updateMany "users" [("age", .int 30)] [("age", .int 31)]),
    .within "users" (.delete 8),
    .create "_users",
    .within "users" .all]

theorem faithful_userOperations : ∀ operation ∈ userOperations, operation.Faithful := by
  have hinserted : Document.Faithful ⟨-9223372036854775808, [("name", .str "Ali")]⟩ :=
    Document.faithful_of_isExact (by decide) (by decide)
  have hdocs : ∀ doc ∈ [(⟨9223372036854775807, []⟩ : Document), ⟨7, [("age", .int 30)]⟩, ⟨7, []⟩],
      doc.Faithful := by
    have hexact : ∀ doc ∈ [(⟨9223372036854775807, []⟩ : Document), ⟨7, [("age", .int 30)]⟩,
        ⟨7, []⟩], doc.Storable
          ∧ ∀ field ∈ doc.fields, Json.isExact Document.fieldLevels field.2 = true := by decide
    intro doc hdoc
    exact Document.faithful_of_isExact (hexact doc hdoc).1 (hexact doc hdoc).2
  have hset : ∀ field ∈ [("age", Json.int 31)], field.2.Faithful := by
    intro field hfield
    obtain rfl := List.mem_singleton.mp hfield
    exact ⟨by decide, rfl⟩
  rw [userOperations]
  simp only [List.forall_mem_cons]
  exact ⟨trivial, hinserted, hdocs, hset, trivial, trivial, trivial, nofun⟩

theorem answers_as_maps_users :
    (operateAll {} userOperations).1
        = [⟨.create "users", .ok ()⟩,
          ⟨.within "users" (.insert ⟨-9223372036854775808, [("name", .str "Ali")]⟩),
            .ok (some (.ok ()))⟩,
          ⟨.call (.insertMany "users"
              [⟨9223372036854775807, []⟩, ⟨7, [("age", .int 30)]⟩, ⟨7, []⟩]),
            .error (.duplicateId 7)⟩,
          ⟨.call (.updateMany "users" [("age", .int 30)] [("age", .int 31)]), .ok (1 : Nat)⟩,
          ⟨.within "users" (.delete 8), .ok (some (.error (.notFound 8)))⟩,
          ⟨.create "_users", .error (.invalidName .leadingUnderscore)⟩,
          ⟨.within "users" .all, .ok (some (.ok
            [⟨-9223372036854775808, [("name", .str "Ali")]⟩, ⟨7, [("age", .int 31)]⟩,
              ⟨9223372036854775807, []⟩]))⟩]
      ∧ (operateAll {} userOperations).2.Represents (MapStore.operateAll {} userOperations).2
      ∧ (operateAll {} userOperations).2.Lawful := by
  obtain ⟨hanswers, hstore, hlawful⟩ := answers_as_maps userOperations faithful_userOperations
  refine ⟨?_, hstore, hlawful⟩
  rw [hanswers]
  rfl

end Store

end DualStore
