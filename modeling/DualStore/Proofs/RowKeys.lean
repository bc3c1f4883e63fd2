import DualStore.Proofs.CarefulCalls
import DualStore.Proofs.SavedRows
import DualStore.Proofs.StoredIdentities

/-!
# Keys of rows

What saving and updating entities does to the keys of a table: an entity that is inserted adds its
identity, and an update adds none, also if there is no row for it. When a save fails, the rows of
the entities in front of the failed one are there.

* `KeepsKeys`: what is assumed of a database about the keys of a table;
* `insertEntity_keys`, `insertAll_keys`, `save_keys`: what inserting does to them;
* `asks_save`, `asks_update`: the requests of a save and of an update;
* `RowTable`, `RowsAndDocuments`, `RowsAndDocuments.answer`: one table beside a document store;
* `keepsKeys_rowsAndDocuments`, `keepsDocuments_rowsAndDocuments`: what is assumed holds of them.
-/

namespace DualStore.Relational

open Model

def Change.table : Change → String
  | .insert table _ => table
  | .update table _ _ => table
  | .delete table _ => table
  | .updateMatching table _ _ => table

/-- What is assumed of a database about the keys of the rows of a table, which a session sees by
`keys`; in a transaction `earlier` has those from its beginning. An insert that touches the table
adds a key that no row has: the one that is given if there is one, and the one that is reported if
one is. All other statements leave the keys as they are: an insert that is refused or touches
nothing, an update of other columns than that of the key, whether there is a row for it or not, and
whatever is about another table. A commit keeps the keys, and a rollback brings back the earlier
ones. -/
structure KeepsKeys {σ : Type} (answer : (r : Request) → σ → r.Answer × σ) (table : String)
    (keys : σ → Set Int) (earlier : σ → Option (Set Int)) : Prop where
  begun : ∀ s after, answer .begin s = ((.ok () : Except Sql.SqlError Unit), after) →
    keys after = keys s ∧ earlier after = some (keys s)
  committed : ∀ s after, answer .commit s = ((.ok () : Except Sql.SqlError Unit), after) →
    keys after = keys s
  rolledBack : ∀ s after start, earlier s = some start →
    answer .rollback s = ((.ok () : Except Sql.SqlError Unit), after) → keys after = start
  inserted : ∀ (values : List (String × Value)) (s after : σ) (outcome : Outcome),
    answer (.change (.insert table values)) s
      = ((.ok outcome : Except Sql.SqlError Outcome), after) →
    outcome.touched ≠ 0 →
    ∃ key, key ∉ keys s ∧ keys after = keys s ∪ {key} ∧
      (∀ id, Keyed.get? idColumn values = some (.integer id) → key = id) ∧
      ∀ reported, outcome.key = some reported → 0 < reported → key = reported
  refused : ∀ (values : List (String × Value)) (s : σ),
    (∀ outcome, (answer (.change (.insert table values)) s).1
      = (.ok outcome : Except Sql.SqlError Outcome) → outcome.touched = 0) →
    keys (answer (.change (.insert table values)) s).2 = keys s
  updated : ∀ (values : List (String × Value)) (id : Int) (s : σ),
    (∀ column ∈ Keyed.keys values, Sql.foldCase column ≠ Sql.foldCase idColumn) →
    keys (answer (.change (.update table values id)) s).2 = keys s
  apart : ∀ (c : Change) (s : σ), Sql.foldCase c.table ≠ Sql.foldCase table →
    keys (answer (.change c) s).2 = keys s
  drawn : ∀ (node : Int) (s : σ), keys (answer (.identity node) s).2 = keys s
  held : ∀ r s, r.isStatement = true → earlier (answer r s).2 = earlier s
  untouched : ∀ r s, r.isDocumental = true → keys (answer r s).2 = keys s

namespace UnitOfWork

variable {σ : Type} {answer : (r : Request) → σ → r.Answer × σ}

/-! ## Inserting -/

section Inserting

variable {u : UnitOfWork} {t : EntityType} {m : EntityMeta} {keys : σ → Set Int}
  {earlier : σ → Option (Set Int)} {s after : σ}

/-- An entity that is inserted adds the key of its row, which is its identity if it has one. -/
theorem insertEntity_keys {zone : Calendar.Zone} (rows : KeepsKeys answer m.table keys earlier)
    {entity inserted : Json}
    (h : Attempt.runWith answer (insertEntity zone t m entity) s = (.ok inserted, after)) :
    ∃ key, keys after = keys s ∪ {key}
      ∧ (t.identityOf inserted ≠ 0 → t.identityOf inserted = key) := by
  obtain ⟨body, values, outcome, rfl, -, -, hchange, htouched, hcases⟩ := insertEntity_ok h
  obtain ⟨key, -, hkeys, hgiven, hreported⟩ := rows.inserted _ _ _ _ hchange htouched
  refine ⟨key, hkeys, fun hne => ?_⟩
  rcases hcases with rfl | ⟨-, reported, hreport, hpos, rfl⟩
  · rw [insertedColumns, if_neg hne] at hgiven
    exact (hgiven _ (if_pos rfl)).symm
  · rw [identityOf_withIdentity hne, hreported reported hreport hpos]

/-- An entity that is not inserted leaves the keys as they are. -/
theorem insertEntity_refused {zone : Calendar.Zone} (rows : KeepsKeys answer m.table keys earlier)
    {entity : Json} {e : Failure}
    (h : Attempt.runWith answer (insertEntity zone t m entity) s = (.error e, after)) :
    keys after = keys s := by
  obtain hrow | ⟨row, between, hrow, h⟩ := Attempt.runWith_bind_error h
  · rw [← (Prod.mk.inj hrow).2]
  obtain ⟨-, rfl⟩ := Prod.mk.inj hrow
  have hrefused := rows.refused row s
  obtain hchange | ⟨outcome, between, hchange, h⟩ := Attempt.runWith_bind_error h
  · have hafter : (answer (.change (.insert m.table row)) s).2 = after := congrArg Prod.snd hchange
    rw [hafter] at hrefused
    refine hrefused fun outcome houtcome => ?_
    rw [Attempt.runWith_askChange.mpr (Prod.ext houtcome hafter)] at hchange
    cases (Prod.mk.inj hchange).1
  · rw [Attempt.runWith_askChange] at hchange
    rw [hchange] at hrefused
    by_cases htouched : outcome.touched = 0
    · rw [if_pos htouched] at h
      rw [← (Prod.mk.inj h).2]
      exact hrefused fun other hother => by rwa [← Except.ok.inj hother]
    · rw [if_neg htouched] at h
      cases hkey : outcome.key with
      | none =>
        rw [hkey] at h
        cases (Prod.mk.inj h).1
      | some key =>
        rw [hkey] at h
        cases (Prod.mk.inj h).1

/-- **Inserting entities** one after the other takes no key out, and when all are inserted and have
identities, these are the keys that are added, by induction on the entities. -/
theorem insertAll_keys (rows : KeepsKeys answer m.table keys earlier)
    {entities saved : List Json} {result : Except Failure Unit}
    (h : Work.runWith answer (insertAll u t m entities) s = ((result, saved), after)) :
    keys s ⊆ keys after ∧ (result = .ok () → (∀ e ∈ saved, t.identityOf e ≠ 0) →
      keys after = keys s ∪ {id | id ∈ saved.map t.identityOf}) := by
  induction entities generalizing saved s with
  | nil =>
    obtain ⟨heq, rfl⟩ := Prod.mk.inj h
    obtain ⟨-, rfl⟩ := Prod.mk.inj heq
    exact ⟨subset_rfl, fun _ _ => by simp⟩
  | cons entity rest ih =>
    obtain ⟨assigned, between, -, hbetween, hrun⟩ :=
      runWith_insertAll_cons rows.drawn u t m entity rest s
    rw [hrun] at h
    rw [← hbetween]
    cases hinsert : Attempt.runWith answer (insertEntity u.settings.zone t m assigned) between with
    | mk inserted middle =>
      rw [hinsert] at h
      cases inserted with
      | error e =>
        obtain ⟨heq, rfl⟩ := Prod.mk.inj h
        obtain ⟨rfl, -⟩ := Prod.mk.inj heq
        rw [insertEntity_refused rows hinsert]
        exact ⟨subset_rfl, fun hok => by cases hok⟩
      | ok first =>
        obtain ⟨heq, hend⟩ := Prod.mk.inj h
        obtain ⟨hresult, rfl⟩ := Prod.mk.inj heq
        obtain ⟨key, hkey, hfirst⟩ := insertEntity_keys rows hinsert
        obtain ⟨hkept, hall⟩ := ih (Prod.ext (Prod.ext hresult rfl) hend)
        rw [hkey] at hkept hall
        refine ⟨Set.subset_union_left.trans hkept, fun hok hne => ?_⟩
        obtain ⟨hne, hothers⟩ := List.forall_mem_cons.mp hne
        rw [hall hok hothers, Set.union_assoc, ← hfirst hne]
        congr 1
        ext id
        simp

/-- **Saving entities** takes no key out, and a save that succeeds has added the identities of its
entities, if all of them have one. -/
theorem save_keys (rows : KeepsKeys answer m.table keys earlier) (hchecked : t.checked = .ok m)
    {entities saved : List Json} {result : Except Failure Unit} {used : UnitOfWork}
    (h : Work.runWith answer (u.save t entities) s = (((result, saved), used), after)) :
    keys s ⊆ keys after ∧ (result = .ok () → (∀ e ∈ saved, t.identityOf e ≠ 0) →
      keys after = keys s ∪ {id | id ∈ saved.map t.identityOf}) := by
  rw [save] at h
  split at h
  · obtain ⟨heq, rfl⟩ := Prod.mk.inj h
    obtain ⟨rfl, -⟩ := Prod.mk.inj (Prod.mk.inj heq).1
    exact ⟨subset_rfl, fun hok => by cases hok⟩
  · simp only [hchecked, Work.runWith_bind] at h
    cases hinsert : Work.runWith answer (insertAll u t m entities) s with
    | mk done between =>
      obtain ⟨inserted, left⟩ := done
      obtain ⟨hkept, hall⟩ := insertAll_keys rows hinsert
      rw [hinsert] at h
      cases inserted with
      | error e =>
        obtain ⟨heq, rfl⟩ := Prod.mk.inj h
        obtain ⟨rfl, -⟩ := Prod.mk.inj (Prod.mk.inj heq).1
        exact ⟨hkept, fun hok => by cases hok⟩
      | ok _ =>
        obtain ⟨heq, rfl⟩ := Prod.mk.inj h
        obtain ⟨-, rfl⟩ := Prod.mk.inj (Prod.mk.inj heq).1
        exact ⟨hkept, fun _ => hall rfl⟩

end Inserting

/-! ## What is asked -/

section

variable {kind : Request → Prop} {t : EntityType}

/-- What is asked behind a result: it goes on only if that is a value. -/
theorem asks_ofExcept {α β : Type} {result : Except Failure α} {f : α → Attempt β}
    (hf : ∀ a, result = .ok a → Work.Asks kind (f a).run) :
    Work.Asks kind (Attempt.ofExcept result >>= f).run := by
  cases result with
  | error e => trivial
  | ok a => exact hf a rfl

/-- Saving entities draws identities and inserts the rows of entities into the table of their
type. -/
theorem asks_save (u : UnitOfWork) (entities : List Json) (hdraw : ∀ node, kind (.identity node))
    (hinsert : ∀ m entity row, t.checked = .ok m → rowOf u.settings.zone t m entity = .ok row →
      kind (.change (.insert m.table row))) :
    Work.Asks kind (u.save t entities) := by
  rw [save]
  split
  · trivial
  · split
    · trivial
    · next m hm =>
      have hassigned : ∀ assigned rest, Work.Asks kind (insertAll u t m rest) →
          Work.Asks kind (insertAssigned u t m assigned rest) := by
        intro assigned rest hrest
        have hentity : Work.Asks kind (insertEntity u.settings.zone t m assigned).run := by
          refine asks_ofExcept fun row hrow =>
            Work.Asks.attempt ⟨hinsert m assigned row hm hrow, fun _ => trivial⟩ fun outcome => ?_
          split
          · trivial
          · split <;> trivial
        refine hentity.bind fun result => ?_
        cases result with
        | error e => trivial
        | ok inserted => exact hrest.bind fun _ => trivial
      have hall : ∀ entities, Work.Asks kind (insertAll u t m entities) := by
        intro entities
        induction entities with
        | nil => trivial
        | cons entity rest ih =>
          rw [insertAll_cons]
          split
          · have hfresh : Work.Asks kind (freshIdentity u.node) :=
              ⟨hdraw u.node, fun _ => trivial⟩
            exact hfresh.bind fun id => hassigned _ _ ih
          · exact hassigned _ _ ih
      refine (hall entities).bind fun done => ?_
      split <;> trivial

/-- What is asked behind a result that is taken over: it goes on only if that is a value. -/
theorem asks_lift {ε α β : Type} {wrap : ε → Failure} {result : Except ε α} {f : α → Attempt β}
    (hf : ∀ a, result = .ok a → Work.Asks kind (f a).run) :
    Work.Asks kind (Attempt.lift wrap result >>= f).run := by
  cases result with
  | error e => trivial
  | ok a => exact hf a rfl

/-- Updating entities updates rows of the table of their type in the columns of its fields. -/
theorem asks_update (u : UnitOfWork) (entities : List Json)
    (hupdate : ∀ m body values id, t.checked = .ok m →
      columnValues u.settings.zone body (Field.persisted m.fields) = .ok values →
      kind (.change (.update m.table values id))) :
    Work.Asks kind (u.update t entities) := by
  have hentity : ∀ m, t.checked = .ok m → ∀ entity,
      Work.Asks kind (updateEntity u.settings.zone t m entity).run := by
    intro m hm entity
    rw [updateEntity]
    split
    · trivial
    · refine asks_lift fun body _ => asks_lift fun values hvalues => ?_
      split
      · trivial
      · exact Work.Asks.attempt ⟨hupdate m body values _ hm hvalues, fun _ => trivial⟩
          fun _ => trivial
  have hall : ∀ m, t.checked = .ok m → ∀ entities,
      Work.Asks kind (updateAll u.settings.zone t m entities).run := by
    intro m hm entities
    induction entities with
    | nil => trivial
    | cons entity rest ih => exact Work.Asks.attempt (hentity m hm entity) fun _ => ih
  have hattempt : Work.Asks kind (if entities.isEmpty then throw (.input (.noEntities "update"))
      else do
        let m ← Attempt.ofExcept t.checked
        updateAll u.settings.zone t m entities
        pure m : Attempt EntityMeta).run := by
    split
    · trivial
    · cases hchecked : t.checked with
      | error e => trivial
      | ok m =>
        have hupdated : Work.Asks kind (updateAll u.settings.zone t m entities >>= fun _ =>
            (pure m : Attempt EntityMeta)).run :=
          Work.Asks.attempt (hall m hchecked entities) fun _ => trivial
        exact hupdated
  refine hattempt.bind fun result => ?_
  split <;> trivial

end

end UnitOfWork

/-! ## One table beside a document store -/

/-- A table as a list of rows: the key of each and what is bound to its columns. -/
abbrev RowTable := List (Int × List (String × Value))

namespace RowTable

def row (rows : RowTable) (key : Int) : Option (String → Option String) :=
  (rows.lookup key).map fun values => rowText values key

/-- The number behind all keys. -/
def nextKey (rows : RowTable) : Int := rows.foldl (fun key row => max key (row.1 + 1)) 1

/-- The key of a row that is inserted: the one that is given, or the next one. -/
def keyOf (rows : RowTable) (values : List (String × Value)) : Option Int :=
  match Keyed.get? idColumn values with
  | none => some rows.nextKey
  | some (.integer id) => some id
  | some _ => none

/-- Inserts a row unless its key is taken. -/
def insert (rows : RowTable) (values : List (String × Value)) :
    Except Sql.SqlError Outcome × RowTable :=
  match rows.keyOf values with
  | none => (.error (.query "datatype mismatch"), rows)
  | some key =>
    if (rows.lookup key).isSome then (.error (.interrupted "key is taken"), rows)
    else (.ok ⟨1, some key⟩, (key, values) :: rows)

def find : Query → RowTable → Except Sql.SqlError RawRows
  | .byId columns _ id, rows =>
    .ok ⟨columns, (rows.row id).toList.map fun text => columns.map text⟩
  | _, _ => .error (.query "not supported")

/-- A row that is inserted gets the given key, else the one that is reported. -/
theorem insert_ok {rows after : RowTable} {values : List (String × Value)} {outcome : Outcome}
    (h : rows.insert values = (.ok outcome, after)) :
    ∃ key, rows.keyOf values = some key ∧ rows.lookup key = none ∧ outcome.key = some key ∧
      after = (key, values) :: rows := by
  unfold insert at h
  split at h
  · exact absurd (Prod.mk.inj h).1 (by simp)
  · next key hkey =>
    split at h
    · exact absurd (Prod.mk.inj h).1 (by simp)
    · next hfree =>
      obtain ⟨houtcome, rfl⟩ := Prod.mk.inj h
      rw [← Except.ok.inj houtcome]
      refine ⟨key, hkey, ?_, rfl, rfl⟩
      cases hlookup : rows.lookup key with
      | none => rfl
      | some taken => exact absurd (by rw [hlookup]; rfl) hfree

end RowTable

/-- A table as a list of rows, the rows from the beginning of a transaction if there is one, and a
document store. -/
structure RowsAndDocuments where
  rows : RowTable := []
  earlier : Option RowTable := none
  documents : Store := {}

namespace RowsAndDocuments

def keysOf (rows : RowTable) : Set Int := {key | key ∈ rows.map Prod.fst}

/-- The key of a row of which columns are overwritten. -/
def movedKey (values : List (String × Value)) (id : Int) : Int :=
  match Keyed.get? idColumn values with
  | some (.integer key) => key
  | _ => id

/-- Overwrites columns in the row of a key. A row moves if the column of its key is one of them, and
must not come to a key that is taken. -/
def update (rows : RowTable) (values : List (String × Value)) (id : Int) :
    Except Sql.SqlError Outcome × RowTable :=
  if (rows.lookup id).isNone then (.ok ⟨0, none⟩, rows)
  else if movedKey values id ≠ id ∧ (rows.lookup (movedKey values id)).isSome then
    (.error (.interrupted "key is taken"), rows)
  else
    (.ok ⟨1, none⟩, rows.map fun entry =>
      if entry.1 = id then (movedKey values id, values ++ entry.2) else entry)

def change : Change → RowTable → Except Sql.SqlError Outcome × RowTable
  | .insert _ values, rows => rows.insert values
  | .update _ values id, rows => update rows values id
  | _, rows => (.error (.query "not supported"), rows)

/-- Answers all requests; there is only the one table. An insert of a key that is taken fails, and
an update of a key without a row touches nothing. -/
def answer (table : String) : (r : Request) → RowsAndDocuments → r.Answer × RowsAndDocuments
  | .begin, s => ((.ok () : Except Sql.SqlError Unit), { s with earlier := some s.rows })
  | .commit, s => ((.ok () : Except Sql.SqlError Unit), { s with earlier := none })
  | .rollback, s => ((.ok () : Except Sql.SqlError Unit),
      { s with rows := s.earlier.getD s.rows, earlier := none })
  | .change c, s =>
    if c.table = table then
      ((change c s.rows).1, { s with rows := (change c s.rows).2 })
    else ((.error (.query "no such table") : Except Sql.SqlError Outcome), s)
  | .query q, s => ((RowTable.find q s.rows : Except Sql.SqlError RawRows), s)
  | .identity _, s => ((s.rows.nextKey : Int), s)
  | .openDocuments, s => ((.ok () : Except StoreError Unit), s)
  | .documents call, s =>
    ((s.documents.perform call).1, { s with documents := (s.documents.perform call).2 })
  | .cacheGet _, s => ((.ok none : Except CacheError (Option Json)), s)
  | .cachePut _ _ _, s => ((.ok () : Except CacheError Unit), s)

theorem answer_change {c : Change} {table : String} (h : c.table = table)
    (s : RowsAndDocuments) : answer table (.change c) s
      = ((change c s.rows).1, { s with rows := (change c s.rows).2 }) :=
  if_pos h

theorem answer_other {c : Change} {table : String} (h : c.table ≠ table)
    (s : RowsAndDocuments) : answer table (.change c) s
      = ((.error (.query "no such table") : Except Sql.SqlError Outcome), s) :=
  if_neg h

/-- A row that is not inserted leaves the rows as they are. -/
theorem insert_refused {rows : RowTable} {values : List (String × Value)}
    (h : ∀ outcome, (rows.insert values).1 = .ok outcome → outcome.touched = 0) :
    (rows.insert values).2 = rows := by
  unfold RowTable.insert at h ⊢
  split at h
  · rfl
  · split at h
    · next htaken => rw [if_pos htaken]
    · exact absurd (h _ rfl) Nat.one_ne_zero

/-- An update of other columns than that of the key moves no row. -/
theorem keysOf_update (rows : RowTable) {values : List (String × Value)} (id : Int)
    (h : idColumn ∉ Keyed.keys values) : keysOf (update rows values id).2 = keysOf rows := by
  have hsame : movedKey values id = id := by
    rw [movedKey, (Keyed.get?_eq_none_iff _ _).mpr h]
  unfold update
  rw [hsame]
  split
  · rfl
  · rw [if_neg fun hmoved => hmoved.1 rfl]
    have hkeys : (rows.map fun entry =>
        if entry.1 = id then (id, values ++ entry.2) else entry).map Prod.fst
          = rows.map Prod.fst := by
      rw [List.map_map]
      refine List.map_congr_left fun entry _ => ?_
      rw [Function.comp_apply]
      split
      · next heq => exact heq.symm
      · rfl
    rw [keysOf, hkeys, keysOf]

end RowsAndDocuments

/-- One table beside a document store keeps its keys. -/
theorem keepsKeys_rowsAndDocuments (table : String) :
    KeepsKeys (RowsAndDocuments.answer table) table
      (fun s => RowsAndDocuments.keysOf s.rows)
      (fun s => s.earlier.map RowsAndDocuments.keysOf) where
  begun s after h := by
    obtain ⟨-, rfl⟩ := Prod.mk.inj h
    exact ⟨rfl, rfl⟩
  committed s after h := by
    obtain ⟨-, rfl⟩ := Prod.mk.inj h
    rfl
  rolledBack s after start hstart h := by
    obtain ⟨-, rfl⟩ := Prod.mk.inj h
    obtain ⟨rows, hrows, rfl⟩ := Option.map_eq_some_iff.mp hstart
    simp [hrows]
  inserted values s after outcome h _ := by
    have htable : (Change.insert table values).table = table := rfl
    rw [RowsAndDocuments.answer_change htable] at h
    obtain ⟨houtcome, rfl⟩ := Prod.mk.inj h
    have hinsert : s.rows.insert values = (.ok outcome, (s.rows.insert values).2) :=
      Prod.ext houtcome rfl
    obtain ⟨key, hkey, hfree, hreport, hrows⟩ := RowTable.insert_ok hinsert
    refine ⟨key, fun hmem => ?_, ?_, fun id hid => ?_, fun reported hreported _ => ?_⟩
    · obtain ⟨entry, hentry, rfl⟩ := List.mem_map.mp hmem
      exact absurd (List.lookup_eq_none_iff.mp hfree entry hentry) (by simp)
    · have hafter : (RowsAndDocuments.change (.insert table values) s.rows).2
          = (key, values) :: s.rows := hrows
      ext other
      simp [hafter, RowsAndDocuments.keysOf]
    · simp only [RowTable.keyOf, hid, Option.some.injEq] at hkey
      exact hkey.symm
    · rw [hreport] at hreported
      exact Option.some.inj hreported
  refused values s h := by
    have htable : (Change.insert table values).table = table := rfl
    rw [RowsAndDocuments.answer_change htable] at h ⊢
    exact congrArg RowsAndDocuments.keysOf (RowsAndDocuments.insert_refused h)
  updated values id s hother := by
    have htable : (Change.update table values id).table = table := rfl
    rw [RowsAndDocuments.answer_change htable]
    exact RowsAndDocuments.keysOf_update s.rows id fun hmem => hother _ hmem rfl
  apart c s hne := by
    rw [RowsAndDocuments.answer_other fun heq => hne (congrArg Sql.foldCase heq)]
  drawn node s := rfl
  held r s hr := by
    cases r with
    | change c =>
      rw [RowsAndDocuments.answer]
      split <;> rfl
    | query q => rfl
    | identity node => rfl
    | _ => cases hr
  untouched r s hr := by
    cases r with
    | openDocuments => rfl
    | documents call => rfl
    | _ => cases hr

/-- The documents beside a table come from the store. -/
theorem keepsDocuments_rowsAndDocuments (table : String) :
    KeepsDocuments (RowsAndDocuments.answer table) RowsAndDocuments.documents where
  performed call result s after h := by
    obtain ⟨hresult, rfl⟩ := Prod.mk.inj h
    exact Prod.ext hresult rfl
  opened s := rfl
  elsewhere r s hr := by
    cases r with
    | change c =>
      rw [RowsAndDocuments.answer]
      split <;> rfl
    | openDocuments => cases hr
    | documents call => cases hr
    | _ => rfl

end DualStore.Relational
