import DualStore.Proofs.KeptBackends
import DualStore.Proofs.PlanRuns
import DualStore.Relational.UnitOfWork

/-!
# Saved entities found again

In a database that keeps rows, each entity that a unit of work saves is found under its identity,
with the fields that its row gives back.

* `IsSavedAs`: how an entity may change while it is saved;
* `insertEntity_ok`, `insertEntity_row`, `insertAll_rows`: what inserting does to the rows;
* `findById_row`, `findById_run`: what is found under an identity whose row is there;
* `found_as_saved`: saving, and finding what was saved.
-/

namespace DualStore.Relational

open Model

variable {σ : Type} {answer : (r : Request) → σ → r.Answer × σ}

/-- How an entity may change while it is saved: it may get a fresh identity before, and the identity
of its row behind, if it had none. -/
structure IsSavedAs (t : EntityType) (autoId : Bool) (entity saved after : Json) : Prop where
  assigned : if autoId then ∃ id, saved = t.withIdentity id entity else saved = entity
  adopted : after = saved ∨ t.identityOf saved = 0 ∧ ∃ key, 0 < key ∧
    after = t.withIdentity key saved

/-! ## Inserting -/

namespace UnitOfWork

/-- The columns of an inserted row: the identity if there is one, and those that the entity
writes. -/
def insertedColumns (id : Int) (values : List (String × Value)) : List (String × Value) :=
  if id = 0 then values else (idColumn, .integer id) :: values

/-- The row that an entity is inserted as, taken apart. -/
theorem rowOf_ok {zone : Calendar.Zone} {t : EntityType} {m : EntityMeta} {entity : Json}
    {row : List (String × Value)} (h : rowOf zone t m entity = .ok row) :
    ∃ body values, entity = .obj body ∧
      columnValues zone body (Field.persisted m.fields) = .ok values ∧
      row = insertedColumns (t.identityOf entity) values ∧ row ≠ [] := by
  cases entity with
  | obj body =>
    cases hvalues : columnValues zone body (Field.persisted m.fields) with
    | error e => simp [rowOf, bodyOf, hvalues, bind, Except.bind] at h
    | ok values =>
      refine ⟨body, values, rfl, hvalues, ?_⟩
      simp only [rowOf, bodyOf, hvalues, mapError_ok, bind, Except.bind] at h
      rw [← insertedColumns] at h
      split at h
      · exact absurd h (by simp)
      · next hne =>
        rw [← Except.ok.inj h]
        exact ⟨rfl, by simpa using hne⟩
  | _ => simp [rowOf, bodyOf, bind, Except.bind] at h

/-- An entity that is an object has the identity that it is given, if that has 64 bits. -/
theorem identityOf_withIdentity {t : EntityType} {id : Int} {body : Fields}
    (h : t.identityOf (t.withIdentity id (.obj body)) ≠ 0) :
    t.identityOf (t.withIdentity id (.obj body)) = id := by
  simp only [EntityType.identityOf, EntityType.withIdentity, Layout.identity, Layout.withIdentity,
    Json.field?, Keyed.get?_put_self, Option.bind_some, Json.asInt64?] at h ⊢
  split at h
  · next hfits => rw [if_pos hfits]; rfl
  · exact absurd rfl h

section Inserted

variable {zone : Calendar.Zone} {m : EntityMeta} {body : Fields} {values : List (String × Value)}

/-- The columns that an entity writes are those of fields. -/
theorem exists_field_of_column
    (hvalues : columnValues zone body (Field.persisted m.fields) = .ok values) {column : String}
    (hmem : column ∈ Keyed.keys values) : ∃ field ∈ m.fields, field.name = column := by
  obtain ⟨field, hfield, hname⟩ :=
    List.mem_map.mp ((keys_columnValues_sublist hvalues).subset hmem)
  exact ⟨field, List.mem_of_mem_filter (List.mem_of_mem_filter hfield), hname⟩

theorem idColumn_notMem (hid : ∀ field ∈ m.fields, field.name ≠ idColumn)
    (hvalues : columnValues zone body (Field.persisted m.fields) = .ok values) :
    idColumn ∉ Keyed.keys values := by
  intro hmem
  obtain ⟨field, hfield, hname⟩ := exists_field_of_column hvalues hmem
  exact hid field hfield hname

theorem nodup_insertedColumns (hm : m.IsChecked)
    (hid : ∀ field ∈ m.fields, field.name ≠ idColumn)
    (hvalues : columnValues zone body (Field.persisted m.fields) = .ok values) (id : Int) :
    (Keyed.keys (insertedColumns id values)).Nodup := by
  have hsublist : (Field.relational m.fields).Sublist m.fields :=
    List.filter_sublist.trans List.filter_sublist
  have hnodup : (Keyed.keys values).Nodup :=
    (hm.names.sublist (hsublist.map _)).sublist (keys_columnValues_sublist hvalues)
  unfold insertedColumns
  split
  · exact hnodup
  · exact List.nodup_cons.mpr ⟨idColumn_notMem hid hvalues, hnodup⟩

theorem insertedColumns_subset
    (hvalues : columnValues zone body (Field.persisted m.fields) = .ok values) (id : Int) :
    ∀ column ∈ Keyed.keys (insertedColumns id values), column ∈ allColumns m := by
  have hsubset : ∀ column ∈ Keyed.keys values, column ∈ allColumns m := fun column hmem =>
    List.mem_cons_of_mem _ ((keys_columnValues_sublist hvalues).subset hmem)
  unfold insertedColumns
  split
  · exact hsubset
  · intro column hmem
    rcases List.mem_cons.mp hmem with rfl | hmem
    · exact List.mem_cons_self
    · exact hsubset column hmem

/-- The columns of an inserted row go with its values. -/
theorem goesWith_insertedColumns (hm : m.IsChecked)
    (hid : ∀ field ∈ m.fields, field.name ≠ idColumn)
    (hvalues : columnValues zone body (Field.persisted m.fields) = .ok values) {id : Int}
    (hne : insertedColumns id values ≠ []) :
    GoesWith m (Keyed.keys (insertedColumns id values))
      ((insertedColumns id values).map Prod.snd) := by
  refine goesWith_entries hne (nodup_insertedColumns hm hid hvalues id)
    (insertedColumns_subset hvalues id) ?_
  have hbound := isBoundTo_columnValues (m := m) hvalues fun field hfield hkind =>
    List.mem_filter.mpr ⟨hfield, hkind⟩
  unfold insertedColumns
  split
  · exact hbound
  · exact List.forall_mem_cons.mpr ⟨trivial, hbound⟩

theorem get?_insertedColumns (hid : ∀ field ∈ m.fields, field.name ≠ idColumn)
    (hvalues : columnValues zone body (Field.persisted m.fields) = .ok values) (id : Int) :
    Keyed.get? idColumn (insertedColumns id values)
      = if id = 0 then none else some (.integer id) := by
  unfold insertedColumns
  split
  · exact (Keyed.get?_eq_none_iff _ _).mpr (idColumn_notMem hid hvalues)
  · rw [Keyed.get?, if_pos rfl]

/-- The identity is told by the key of the row, whether it is among the columns or not. -/
theorem rowText_insertedColumns (id key : Int) :
    rowText (insertedColumns id values) key = rowText values key := by
  funext column
  unfold insertedColumns
  split
  · rfl
  · by_cases hcolumn : column = idColumn
    · rw [rowText, rowText, if_pos hcolumn, if_pos hcolumn]
    · rw [rowText, rowText, if_neg hcolumn, if_neg hcolumn, Keyed.get?,
        if_neg fun heq => hcolumn heq.symm]

end Inserted

/-- An entity that is inserted has touched the table with its row. It gets the key that is reported
if it had no identity, and is as before otherwise. -/
theorem insertEntity_ok {zone : Calendar.Zone} {t : EntityType} {m : EntityMeta}
    {entity inserted : Json} {s after : σ}
    (h : Attempt.runWith answer (insertEntity zone t m entity) s = (.ok inserted, after)) :
    ∃ body values outcome, entity = .obj body ∧
      columnValues zone body (Field.persisted m.fields) = .ok values ∧
      insertedColumns (t.identityOf entity) values ≠ [] ∧
      answer (.change (.insert m.table (insertedColumns (t.identityOf entity) values))) s
        = ((.ok outcome : Except Sql.SqlError Outcome), after) ∧
      outcome.touched ≠ 0 ∧
      (inserted = entity ∨ t.identityOf entity = 0 ∧ ∃ reported, outcome.key = some reported ∧
        0 < reported ∧ inserted = t.withIdentity reported entity) := by
  obtain ⟨columns, start, hrowOf, h⟩ := Attempt.runWith_bind_ok h
  obtain ⟨hcolumns, rfl⟩ := Prod.mk.inj hrowOf
  obtain ⟨body, values, rfl, hvalues, rfl, hne⟩ := rowOf_ok hcolumns
  obtain ⟨outcome, between, hchange, h⟩ := Attempt.runWith_bind_ok h
  rw [Attempt.runWith_askChange] at hchange
  by_cases htouched : outcome.touched = 0
  · rw [if_pos htouched, Attempt.runWith_throw] at h
    exact absurd (Prod.mk.inj h).1 (by simp)
  rw [if_neg htouched] at h
  have hafter : after = between ∧ (inserted = .obj body ∨ t.identityOf (.obj body) = 0 ∧
      ∃ reported, outcome.key = some reported ∧ 0 < reported ∧
        inserted = t.withIdentity reported (.obj body)) := by
    cases hreport : outcome.key with
    | none =>
      rw [hreport] at h
      obtain ⟨heq, rfl⟩ := Prod.mk.inj h
      exact ⟨rfl, .inl (Except.ok.inj heq).symm⟩
    | some reported =>
      rw [hreport] at h
      obtain ⟨heq, rfl⟩ := Prod.mk.inj h
      have heq := (Except.ok.inj heq).symm
      by_cases hadopt : t.identityOf (.obj body) = 0 ∧ 0 < reported
      · rw [if_pos hadopt] at heq
        exact ⟨rfl, .inr ⟨hadopt.1, reported, rfl, hadopt.2, heq⟩⟩
      · rw [if_neg hadopt] at heq
        exact ⟨rfl, .inl heq⟩
  obtain ⟨rfl, hcases⟩ := hafter
  exact ⟨body, values, outcome, rfl, hvalues, hne, hchange, htouched, hcases⟩

/-- **Inserting an entity** that succeeds puts its row under its identity and leaves the other rows
as they are. -/
theorem insertEntity_row {row : σ → Int → Option (String → Option String)} {zone : Calendar.Zone}
    {t : EntityType} {m : EntityMeta} (hm : m.IsChecked)
    (hid : ∀ field ∈ m.fields, field.name ≠ idColumn) (hkeeps : KeepsRows answer m row)
    {entity inserted : Json} {s after : σ}
    (h : Attempt.runWith answer (insertEntity zone t m entity) s = (.ok inserted, after)) :
    ∃ body, entity = .obj body ∧
      (inserted = entity ∨ t.identityOf entity = 0 ∧ ∃ key, 0 < key ∧
        inserted = t.withIdentity key entity) ∧
      (t.identityOf inserted ≠ 0 → HasRow zone m (row after) body (t.identityOf inserted)) ∧
      Extends (row s) (row after) := by
  obtain ⟨body, values, outcome, rfl, hvalues, hne, hchange, htouched, hcases⟩ := insertEntity_ok h
  obtain ⟨key, hfree, hkey, hothers, hgiven, hreported⟩ :=
    hkeeps.insert (goesWith_insertedColumns hm hid hvalues hne) hchange htouched
  rw [rowText_insertedColumns] at hkey
  rw [get?_insertedColumns hid hvalues] at hgiven hreported
  have hextends : Extends (row s) (row after) := by
    intro other text hother
    have hne : other ≠ key := by
      rintro rfl
      rw [hfree] at hother
      exact absurd hother (by simp)
    rw [hothers other hne]
    exact hother
  rcases hcases with rfl | ⟨hzero, reported, hreport, hpos, rfl⟩
  · refine ⟨body, rfl, .inl rfl, fun hne => ?_, hextends⟩
    rw [if_neg hne] at hgiven
    have hkeyEq := hgiven _ rfl
    rw [hkeyEq] at hkey
    exact ⟨values, hvalues, hkey⟩
  · refine ⟨body, rfl, .inr ⟨hzero, reported, hpos, rfl⟩, fun hne => ?_, hextends⟩
    rw [if_pos hzero] at hreported
    have hkeyEq := hreported rfl reported hreport hpos
    rw [identityOf_withIdentity hne, ← hkeyEq]
    exact ⟨values, hvalues, hkey⟩

/-- The run of inserting entities behind a first one that was inserted, or that failed. -/
def afterFirst (answer : (r : Request) → σ → r.Answer × σ) (u : UnitOfWork) (t : EntityType)
    (m : EntityMeta) (assigned : Json) (rest : List Json) :
    Except Failure Json × σ → (Except Failure Unit × List Json) × σ
  | (.error e, s) => ((.error e, assigned :: rest), s)
  | (.ok inserted, s) =>
    let others := Work.runWith answer (insertAll u t m rest) s
    ((others.1.1, inserted :: others.1.2), others.2)

/-- The first entity gets a fresh identity or stays as it is, and is inserted; then the others
are. What a fresh identity leaves as it is, is as before when the entity is inserted. -/
theorem runWith_insertAll_cons {V : Type} {view : σ → V}
    (hidentity : ∀ (node : Int) (s : σ), view (answer (.identity node) s).2 = view s)
    (u : UnitOfWork) (t : EntityType) (m : EntityMeta) (entity : Json) (rest : List Json) (s : σ) :
    ∃ assigned between,
      (if u.autoId then ∃ id, assigned = t.withIdentity id entity else assigned = entity) ∧
      view between = view s ∧
      Work.runWith answer (insertAll u t m (entity :: rest)) s
        = afterFirst answer u t m assigned rest
            (Attempt.runWith answer (insertEntity u.settings.zone t m assigned) between) := by
  have hassigned : ∀ (assigned : Json) (between : σ),
      Work.runWith answer (insertAssigned u t m assigned rest) between
      = afterFirst answer u t m assigned rest
          (Attempt.runWith answer (insertEntity u.settings.zone t m assigned) between) := by
    intro assigned between
    rw [insertAssigned, Work.runWith_bind, ← Attempt.runWith]
    obtain ⟨result, middle⟩ := Attempt.runWith answer
      (insertEntity u.settings.zone t m assigned) between
    cases result with
    | error e => rfl
    | ok inserted =>
      simp only [Work.runWith_bind]
      rfl
  rw [insertAll_cons]
  cases hauto : u.autoId with
  | false => exact ⟨entity, s, rfl, rfl, hassigned entity s⟩
  | true =>
    exact ⟨t.withIdentity (show Int from (answer (.identity u.node) s).1) entity,
      (answer (.identity u.node) s).2, ⟨_, rfl⟩, hidentity u.node s, hassigned _ _⟩

/-- **Inserting entities** one after the other: when all are inserted, the row of each of them is
there, by induction on the entities. -/
theorem insertAll_rows {row : σ → Int → Option (String → Option String)} {u : UnitOfWork}
    {t : EntityType} {m : EntityMeta} (hm : m.IsChecked)
    (hid : ∀ field ∈ m.fields, field.name ≠ idColumn) (hkeeps : KeepsRows answer m row)
    {entities saved : List Json} {s after : σ}
    (h : Work.runWith answer (insertAll u t m entities) s = ((.ok (), saved), after)) :
    List.Forall₂ (fun entity inserted => ∃ body, IsSavedAs t u.autoId entity (.obj body) inserted ∧
        (t.identityOf inserted ≠ 0 →
          HasRow u.settings.zone m (row after) body (t.identityOf inserted)))
      entities saved ∧ Extends (row s) (row after) := by
  induction entities generalizing saved s with
  | nil =>
    obtain ⟨heq, rfl⟩ := Prod.mk.inj h
    obtain ⟨_, rfl⟩ := Prod.mk.inj heq
    exact ⟨.nil, fun _ _ hkey => hkey⟩
  | cons entity rest ih =>
    obtain ⟨assigned, between, hassigned, hrows, hrun⟩ :=
      runWith_insertAll_cons hkeeps.identity u t m entity rest s
    rw [hrun] at h
    cases hinsert : Attempt.runWith answer (insertEntity u.settings.zone t m assigned) between with
    | mk result middle =>
      rw [hinsert] at h
      cases result with
      | error e =>
        obtain ⟨heq, _⟩ := Prod.mk.inj h
        exact absurd (Prod.mk.inj heq).1 (by simp)
      | ok inserted =>
        obtain ⟨body, rfl, hadopted, hrow, hextends⟩ := insertEntity_row hm hid hkeeps hinsert
        obtain ⟨heq, hend⟩ := Prod.mk.inj h
        obtain ⟨hresult, rfl⟩ := Prod.mk.inj heq
        obtain ⟨hothers, hkept⟩ := ih (Prod.ext (Prod.ext hresult rfl) hend)
        rw [hrows] at hextends
        refine ⟨.cons ⟨body, ⟨hassigned, hadopted⟩, fun hne => ?_⟩ hothers, ?_⟩
        · exact hkept.hasRow (hrow hne)
        · intro key text hkey
          exact hkept key text (hextends key text hkey)

/-! ## Finding -/

/-- The object of an identity and of the fields that come back, as an entity of the type. -/
def foundEntity (t : EntityType) (m : EntityMeta) (id : Int) (body : Fields) :
    Except Failure (Option Json) :=
  match t.layout.read? (.obj ((m.idField, .int id) :: restoredFields m.fields body)) with
  | none => .error .json
  | some entity => .ok (some entity)

/-- The object of an identity and of the fields that the cells of its row hold, as an entity of the
type. -/
def entityOf (t : EntityType) (m : EntityMeta) (id : Int) :
    Except DecodeError Fields → Except Failure (Option Json)
  | .error e => .error (.decode e)
  | .ok fields =>
    match t.layout.read? (.obj ((m.idField, .int id) :: fields)) with
    | none => .error .json
    | some entity => .ok (some entity)

/-- **Finding an entity** whose row is there: its identity and the fields that the cells of the row
hold. -/
theorem findById_row {v : UnitOfWork} {t : EntityType} {m : EntityMeta}
    (hresolve : t.resolve = .ok m) {id : Int} (hne : id ≠ 0)
    (hfits : Decimal.fitsInt64 id = true) {text : String → Option String}
    (hkey : text idColumn = some (Decimal.intText id)) {s after : σ} {names : List String}
    (hanswer : answer (.query (.byId (allColumns m) m.table id)) s
      = ((.ok ⟨names, [(allColumns m).map text]⟩ : Except Sql.SqlError RawRows), after)) :
    (Work.runWith answer (findById v t id) s).1.1
      = entityOf t m id
          (cellFields (cellOf v.settings.zone text) (Field.relational m.fields)) := by
  have hquery := Attempt.runWith_askQuery.mpr hanswer
  have hread : readRow v.settings.zone (allBindings m) ((allColumns m).map text) = _ :=
    readRow_text (isChecked_resolve hresolve) hkey hfits
  have hchecked : Attempt.runWith answer (Attempt.ofExcept t.checked) s = (.ok m, s) := by
    rw [Attempt.runWith_ofExcept, EntityType.checked_of_resolve hresolve]
  have hprojection : Attempt.runWith answer
      (Attempt.lift Failure.input (Projection.ofMeta m [])) s
        = (.ok ⟨allColumns m, allBindings m⟩, s) := by
    rw [Attempt.lift, Attempt.runWith_ofExcept, ofMeta_all]
    rfl
  have hrun : Attempt.runWith answer (rowById v.settings.zone t id) s
      = (entityOf t m id
          (cellFields (cellOf v.settings.zone text) (Field.relational m.fields)), after) := by
    rw [rowById, if_neg hne, Attempt.runWith_bind_of_ok hchecked,
      Attempt.runWith_bind_of_ok hprojection, Attempt.runWith_bind_of_ok hquery,
      Projection.readRows, hread]
    cases cellFields (cellOf v.settings.zone text) (Field.relational m.fields) with
    | error e => rfl
    | ok fields =>
      simp only [Except.map, mapError_ok, bind, Except.bind, entityOf]
      cases t.layout.read? (.obj ((m.idField, .int id) :: fields)) <;> rfl
  rw [findById, call, Work.runWith_bind, ← Attempt.runWith, hrun]
  rfl

/-- An entity whose row is there is found with its fields that come back. -/
theorem findById_run {row : σ → Int → Option (String → Option String)} {v : UnitOfWork}
    {t : EntityType} {m : EntityMeta} (hresolve : t.resolve = .ok m)
    (hid : ∀ field ∈ m.fields, field.name ≠ idColumn) (hkeeps : KeepsRows answer m row)
    {id : Int} (hne : id ≠ 0) (hfits : Decimal.fitsInt64 id = true) {body : Fields}
    (hconforms : ∀ field ∈ Field.relational m.fields, ∀ value,
      Keyed.get? field.name body = some value → value ≠ .null →
        Conforms v.settings.zone field value)
    {s : σ} (hrow : HasRow v.settings.zone m (row s) body id) :
    (Work.runWith answer (findById v t id) s).1.1 = foundEntity t m id body := by
  obtain ⟨values, hvalues, htext⟩ := hrow
  obtain ⟨names, after, hanswer⟩ := hkeeps.byId id s
  rw [htext] at hanswer
  rw [findById_row hresolve hne hfits (by rw [rowText, if_pos rfl]) hanswer,
    cellFields_rowText (isChecked_resolve hresolve) hid hvalues id hconforms]
  rfl

/-! ## Saving -/

theorem fitsInt64_identityOf (t : EntityType) (body : Fields) :
    Decimal.fitsInt64 (t.identityOf (.obj body)) = true := by
  simp only [EntityType.identityOf, Layout.identity]
  cases Json.field? t.key (.obj body) with
  | none => rfl
  | some value =>
    cases value with
    | int n =>
      simp only [Option.bind_some, Json.asInt64?]
      split
      · next hfits => exact hfits
      · rfl
    | _ => rfl

/-- Saving that succeeds has inserted all entities. -/
theorem save_run {u after : UnitOfWork} {t : EntityType} {m : EntityMeta}
    (hresolve : t.resolve = .ok m) {entities saved : List Json} {s s' : σ}
    (h : Work.runWith answer (save u t entities) s = (((.ok (), saved), after), s')) :
    Work.runWith answer (insertAll u t m entities) s = ((.ok (), saved), s') := by
  have hchecked := EntityType.checked_of_resolve hresolve
  rw [save] at h
  split at h
  · obtain ⟨heq, _⟩ := Prod.mk.inj h
    exact absurd (Prod.mk.inj (Prod.mk.inj heq).1).1 (by simp)
  · simp only [hchecked, Work.runWith_bind] at h
    cases hinsert : Work.runWith answer (insertAll u t m entities) s with
    | mk first middle =>
      obtain ⟨result, inserted⟩ := first
      rw [hinsert] at h
      cases result with
      | error e =>
        obtain ⟨heq, _⟩ := Prod.mk.inj h
        exact absurd (Prod.mk.inj (Prod.mk.inj heq).1).1 (by simp)
      | ok _ =>
        obtain ⟨heq, rfl⟩ := Prod.mk.inj h
        obtain ⟨_, rfl⟩ := Prod.mk.inj (Prod.mk.inj heq).1
        rfl

/-- **Saved entities are found as they were saved.** For checked metadata without a field that is
called like the column of the identity, for every zone and every database that keeps rows: after
entities were saved, each of them that has an identity is found under it, with its fields that come
back, if the values of its fields are of the declared kinds. -/
theorem found_as_saved {row : σ → Int → Option (String → Option String)} {u after v : UnitOfWork}
    {t : EntityType} {m : EntityMeta} (hresolve : t.resolve = .ok m)
    (hid : ∀ field ∈ m.fields, field.name ≠ idColumn) (hkeeps : KeepsRows answer m row)
    (hzone : v.settings.zone = u.settings.zone) {entities saved : List Json} {s s' : σ}
    (hsaved : Work.runWith answer (save u t entities) s = (((.ok (), saved), after), s')) :
    List.Forall₂ (fun entity inserted => ∃ body, IsSavedAs t u.autoId entity (.obj body) inserted ∧
        ((∀ field ∈ Field.relational m.fields, ∀ value, Keyed.get? field.name body = some value →
            value ≠ .null → Conforms u.settings.zone field value) →
          t.identityOf inserted ≠ 0 →
          (Work.runWith answer (findById v t (t.identityOf inserted)) s').1.1
            = foundEntity t m (t.identityOf inserted) body))
      entities saved := by
  have hm := isChecked_resolve hresolve
  obtain ⟨hrows, _⟩ := insertAll_rows hm hid hkeeps (save_run hresolve hsaved)
  refine hrows.imp ?_
  rintro entity inserted ⟨body, hsavedAs, hrow⟩
  refine ⟨body, hsavedAs, fun hconforms hne => ?_⟩
  rw [← hzone] at hconforms hrow
  have hobject : ∃ fields, inserted = .obj fields := by
    rcases hsavedAs.adopted with rfl | ⟨_, key, _, rfl⟩
    · exact ⟨body, rfl⟩
    · exact ⟨_, rfl⟩
  have hfits : Decimal.fitsInt64 (t.identityOf inserted) = true := by
    obtain ⟨fields, rfl⟩ := hobject
    exact fitsInt64_identityOf t fields
  exact findById_run hresolve hid hkeeps hne hfits hconforms (hrow hne)

/-- A type with a field of every sort: an empty text, the least integer of its width, a date, a list
and an ignored field. -/
def noteType : EntityType where
  name := "Note"
  identity := ⟨"id", "note", false⟩
  fields := [⟨"title", .string, false, false⟩, ⟨"size", .int .w8, false, false⟩,
    ⟨"born", .int .w64, false, true⟩, ⟨"tags", .list .string, false, false⟩,
    ⟨"draft", .string, true, false⟩]
  layout := .anything
  key := "id"

theorem mem_relational_noteType {field : Field} (h : field ∈ Field.relational noteType.fields) :
    field = ⟨"title", .string, false, false⟩ ∨ field = ⟨"size", .int .w8, false, false⟩ ∨
      field = ⟨"born", .int .w64, false, true⟩ ∨
      field = ⟨"tags", .list .string, false, false⟩ := by
  simpa [Field.relational, Field.persisted, noteType, FieldKind.isRelational] using h

def noteBody : Fields :=
  [("id", .int 7), ("title", .str ""), ("size", .int (-128)), ("born", .int 1500),
    ("tags", .arr [.str "a"]), ("draft", .str "b")]

def noteMeta : EntityMeta := ⟨"Note", "note", "id", false, noteType.fields⟩

def noteShape : Sql.TableDef where
  name := "note"
  columns := [⟨"id", .integer⟩, ⟨"title", .text⟩, ⟨"size", .integer⟩, ⟨"born", .text⟩,
    ⟨"tags", .text⟩]

theorem hasTable_note : HasTable noteMeta [noteShape] := by
  refine ⟨noteShape, rfl, ?_, ?_, ?_, ?_, ⟨_, _, by decide, rfl⟩, ?_⟩ <;> decide +kernel

def otherNote : Sql.Row := [.integer 8, .text "other", .null, .null, .null]

def noteBackend : KeptBackend [noteShape] :=
  .ofTable ⟨noteShape, [otherNote], 8⟩ ⟨by simp [otherNote], by simp [otherNote, noteShape],
    by simp⟩

/-- A unit of work that draws no identities and replicates nothing. -/
def plainWork : UnitOfWork := ⟨{}, false, false, 0, false, {}, []⟩

/-- What saving the entity gives. -/
def savedNote : ((Except Failure Unit × List Json) × UnitOfWork) × KeptBackend [noteShape] :=
  Work.runWith (KeptBackend.answer "a") (save plainWork noteType [.obj noteBody]) noteBackend

theorem savedNote_eq : savedNote = (((.ok (), [.obj noteBody]), savedNote.1.2), savedNote.2) := by
  rfl

theorem found_as_saved_note :
    (Work.runWith (KeptBackend.answer "a") (findById plainWork noteType 7) savedNote.2).1.1
      = .ok (some (.obj [("id", .int 7), ("size", .int (-128)), ("born", .int 1000),
          ("tags", .arr [.str "a"])])) := by
  have hresolve : noteType.resolve = .ok noteMeta := rfl
  have hfound := found_as_saved (v := plainWork) hresolve (by decide)
    (keepsRows_backend hasTable_note "a") rfl savedNote_eq
  cases hfound with
  | cons hnote _ =>
    obtain ⟨body, hsavedAs, hread⟩ := hnote
    have hbody : body = noteBody := Json.obj.inj hsavedAs.assigned
    subst hbody
    have hid : noteType.identityOf (.obj noteBody) = 7 := rfl
    have hback : foundEntity noteType noteMeta 7 noteBody = .ok (some (.obj [("id", .int 7),
        ("size", .int (-128)), ("born", .int 1000), ("tags", .arr [.str "a"])])) := rfl
    rw [hid, hback] at hread
    refine hread ?_ (by decide)
    intro field hfield value hvalue _
    rcases mem_relational_noteType hfield with rfl | rfl | rfl | rfl
    · rw [← Option.some.inj (hvalue : some (Json.str "") = some value)]
      trivial
    · rw [← Option.some.inj (hvalue : some (Json.int (-128)) = some value)]
      exact ⟨by decide, by simp⟩
    · rw [← Option.some.inj (hvalue : some (Json.int 1500) = some value)]
      exact ⟨by decide, fun _ _ => by decide +kernel⟩
    · rw [← Option.some.inj (hvalue : some (Json.arr [.str "a"]) = some value)]
      exact ⟨rfl, rfl⟩

end UnitOfWork

end DualStore.Relational
