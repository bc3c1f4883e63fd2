import DualStore.Proofs.RowKeys
import DualStore.Proofs.SameValues

/-!
# Columns of statements

The columns that a statement lists are among those of the entity type: the column of the identity
and those of the fields. The checks of a declaration keep the names of the fields apart from each
other and from the declared name of the identity, but not from the name of its column. So a field
that is called like the column is listed beside it.

* `mem_keys_columnValues`, `WritesColumn`: the columns that an entity writes;
* `InsertsRow`, `UpdatesRow`: what the requests of a save and of an update list;
* `asks_insertsRow`, `asks_updatesRow`: all requests do so;
* `columns_ofMeta`: the columns that are selected;
* `idKey_notMem_ofEntity`: the fields of a document beside its identity;
* `statement_columns`: the main statement;
* `column_listed_twice`: a type of which every statement lists its identity twice.
-/

namespace DualStore.Document

open Json Model

/-- No field of the document of an entity stands under the key of the identity. -/
theorem idKey_notMem_ofEntity {m : EntityMeta} {id : Int} {entity : Json} {d : Document}
    (hentity : entity.IsValue) (h : ofEntity m id entity = .ok d) :
    idKey ∉ Keyed.keys d.fields ∧ d.toJson.field? idKey = some (.int id) := by
  cases entity with
  | obj body =>
    refine ⟨?_, field?_idKey_ofEntity h⟩
    simp only [ofEntity, make, Except.ok.injEq] at h
    subst h
    have hnodup := nodup_dropIgnored (Keyed.nodup_swapErase hentity.nodup m.idField) m.fields
    rw [← Keyed.get?_eq_none_iff]
    exact Keyed.get?_swapErase_self hnodup idKey
  | _ => cases h

end DualStore.Document

namespace DualStore.Relational

open Model

variable {zone : Calendar.Zone} {m : EntityMeta} {body : Fields} {values : List (String × Value)}

/-! ## Columns that an entity writes -/

/-- The columns that an entity writes are those of the fields that have a parameter. -/
theorem mem_keys_columnValues {fields : List Field} (h : columnValues zone body fields = .ok values)
    (column : String) : column ∈ Keyed.keys values ↔ ∃ field ∈ fields, field.name = column
      ∧ ∃ v, fieldParameter field (Keyed.get? column body) zone = .ok (some v) := by
  induction fields generalizing values with
  | nil =>
    rw [columnValues, Except.ok.injEq] at h
    simp [← h, Keyed.keys]
  | cons field rest ih =>
    obtain ⟨bound, others, hbound, hothers, rfl⟩ := columnValues_cons h
    have hfirst : column ∈ Keyed.keys (bound.toList.map fun v => (field.name, v)) ↔
        field.name = column
          ∧ ∃ v, fieldParameter field (Keyed.get? column body) zone = .ok (some v) := by
      constructor
      · intro hmem
        cases bound with
        | none => cases hmem
        | some v =>
          obtain rfl := List.mem_singleton.mp hmem
          exact ⟨rfl, v, hbound⟩
      · rintro ⟨rfl, v, hv⟩
        rw [hbound, Except.ok.injEq] at hv
        rw [hv]
        exact List.mem_singleton_self _
    rw [Keyed.keys, List.map_append, List.mem_append, ← Keyed.keys, ← Keyed.keys, hfirst,
      ih hothers]
    simp [or_and_right, exists_or]

/-- Whether an entity writes a column for one of its fields. -/
def WritesColumn (zone : Calendar.Zone) (m : EntityMeta) (body : Fields) (column : String) : Prop :=
  ∃ field ∈ Field.persisted m.fields, field.name = column
    ∧ ∃ v, fieldParameter field (Keyed.get? column body) zone = .ok (some v)

/-- Only a field with a column writes one. -/
theorem not_writesColumn {column : String}
    (hclear : ∀ field ∈ Field.relational m.fields, field.name ≠ column) :
    ¬WritesColumn zone m body column := by
  rintro ⟨field, hfield, hname, v, hv⟩
  cases hkind : field.kind.isRelational with
  | false => cases fieldParameter_of_not_relational hkind hv
  | true => exact hclear field (List.mem_filter.mpr ⟨hfield, hkind⟩) hname

theorem nodup_columnNames (hm : m.IsChecked) :
    ((Field.relational m.fields).map Field.name).Nodup :=
  hm.names.sublist ((List.filter_sublist.trans List.filter_sublist).map _)

/-- The columns of an entity type are distinct unless a field is called like that of the
identity. -/
theorem nodup_allColumns (hm : m.IsChecked) : (allColumns m).Nodup ↔
    ∀ field ∈ Field.relational m.fields, field.name ≠ idColumn := by
  rw [allColumns, List.nodup_cons, and_iff_left (nodup_columnNames hm), List.mem_map]
  push Not
  rfl

/-! ## Rows that are written -/

namespace UnitOfWork

variable {t : EntityType}

/-- An inserted row lists columns of the type, the identity twice if it has one and a field writes
its column too. -/
def InsertsRow (t : EntityType) (m : EntityMeta) (zone : Calendar.Zone) : Request → Prop
  | .identity _ => True
  | .change (.insert table row) => table = m.table ∧ ∃ body,
      rowOf zone t m (.obj body) = .ok row ∧ (Keyed.keys row).Sublist (allColumns m)
        ∧ ((Keyed.keys row).Nodup ↔
          t.identityOf (.obj body) = 0 ∨ ¬WritesColumn zone m body idColumn)
  | _ => False

/-- An updated row lists columns of fields, each once, that of the identity if a field writes it. -/
def UpdatesRow (m : EntityMeta) (zone : Calendar.Zone) : Request → Prop
  | .change (.update table values _) => table = m.table ∧ ∃ body,
      columnValues zone body (Field.persisted m.fields) = .ok values
        ∧ (Keyed.keys values).Sublist ((Field.relational m.fields).map Field.name)
        ∧ (Keyed.keys values).Nodup
        ∧ (idColumn ∈ Keyed.keys values ↔ WritesColumn zone m body idColumn)
  | _ => False

theorem insertedColumns_sublist
    (hvalues : columnValues zone body (Field.persisted m.fields) = .ok values) (id : Int) :
    (Keyed.keys (insertedColumns id values)).Sublist (allColumns m) := by
  unfold insertedColumns
  split
  · exact (keys_columnValues_sublist hvalues).cons idColumn
  · exact (keys_columnValues_sublist hvalues).cons_cons idColumn

theorem nodup_insertedColumns_iff (hm : m.IsChecked)
    (hvalues : columnValues zone body (Field.persisted m.fields) = .ok values) (id : Int) :
    (Keyed.keys (insertedColumns id values)).Nodup ↔
      id = 0 ∨ ¬WritesColumn zone m body idColumn := by
  have hnodup := (nodup_columnNames hm).sublist (keys_columnValues_sublist hvalues)
  have hmem := mem_keys_columnValues hvalues idColumn
  rw [← WritesColumn] at hmem
  unfold insertedColumns
  split
  · next hid => exact ⟨fun _ => .inl hid, fun _ => hnodup⟩
  · next hid =>
    rw [← hmem, or_iff_right hid]
    exact List.nodup_cons.trans (and_iff_left hnodup)

/-- Every insert that a save asks for is of such a row. -/
theorem asks_insertsRow (hm : t.resolve = .ok m) (u : UnitOfWork) (entities : List Json) :
    Work.Asks (InsertsRow t m u.settings.zone) (u.save t entities) := by
  refine asks_save u entities (fun _ => trivial) fun m' entity row hm' hrow => ?_
  rw [t.checked_of_resolve hm, Except.ok.injEq] at hm'
  subst hm'
  obtain ⟨body, values, rfl, hvalues, rfl, -⟩ := rowOf_ok hrow
  exact ⟨rfl, body, hrow, insertedColumns_sublist hvalues _,
    nodup_insertedColumns_iff (isChecked_resolve hm) hvalues _⟩

/-- Every update of an entity is of such a row. -/
theorem asks_updatesRow (hm : t.resolve = .ok m) (u : UnitOfWork) (entities : List Json) :
    Work.Asks (UpdatesRow m u.settings.zone) (u.update t entities) := by
  refine asks_update u entities fun m' body values id hm' hvalues => ?_
  rw [t.checked_of_resolve hm, Except.ok.injEq] at hm'
  subst hm'
  have hsublist := keys_columnValues_sublist hvalues
  exact ⟨rfl, body, hvalues, hsublist,
    (nodup_columnNames (isChecked_resolve hm)).sublist hsublist, mem_keys_columnValues hvalues _⟩

end UnitOfWork

/-! ## Columns that are selected -/

/-- The fields with columns that are asked for. -/
def wantedNames (m : EntityMeta) (wanted : List String) : List String :=
  ((Field.relational m.fields).filter fun field =>
    Projection.isWanted wanted field.name).map Field.name

theorem ofMeta_eq_ok {wanted : List String} {p : Projection}
    (h : Projection.ofMeta m wanted = .ok p) :
    p.columns = (if Projection.isWanted wanted idColumn || Projection.isWanted wanted m.idField
      then [idColumn] else []) ++ wantedNames m wanted := by
  unfold Projection.ofMeta at h
  dsimp only at h
  by_cases hidentity :
      (Projection.isWanted wanted idColumn || Projection.isWanted wanted m.idField) = true
  · rw [if_pos hidentity, if_neg (by simp), Except.ok.injEq] at h
    rw [← h, if_pos hidentity, List.map_append, List.map_map]
    rfl
  · rw [if_neg hidentity] at h
    split at h
    · cases h
    · rw [Except.ok.injEq] at h
      rw [← h, if_neg hidentity, List.map_append, List.map_map]
      rfl

theorem wantedNames_sublist (m : EntityMeta) (wanted : List String) :
    (wantedNames m wanted).Sublist ((Field.relational m.fields).map Field.name) :=
  List.filter_sublist.map _

theorem mem_wantedNames {wanted : List String} {name : String} : name ∈ wantedNames m wanted ↔
    Projection.isWanted wanted name = true
      ∧ ∃ field ∈ Field.relational m.fields, field.name = name := by
  rw [wantedNames, List.mem_map]
  constructor
  · rintro ⟨field, hfield, rfl⟩
    obtain ⟨hmem, hwanted⟩ := List.mem_filter.mp hfield
    exact ⟨hwanted, field, hmem, rfl⟩
  · rintro ⟨hwanted, field, hmem, rfl⟩
    exact ⟨field, List.mem_filter.mpr ⟨hmem, hwanted⟩, rfl⟩

/-- The selected columns are columns of the type, the identity twice if a field that is called like
its column is asked for. -/
theorem columns_ofMeta (hm : m.IsChecked) {wanted : List String} {p : Projection}
    (h : Projection.ofMeta m wanted = .ok p) : p.columns.Sublist (allColumns m)
      ∧ (p.columns.Nodup ↔ ¬(Projection.isWanted wanted idColumn = true
        ∧ ∃ field ∈ Field.relational m.fields, field.name = idColumn)) := by
  have hnames := wantedNames_sublist m wanted
  have hnodup := (nodup_columnNames hm).sublist hnames
  rw [ofMeta_eq_ok h, ← mem_wantedNames]
  split
  · exact ⟨hnames.cons_cons idColumn, List.nodup_cons.trans (and_iff_left hnodup)⟩
  · next hunwanted =>
    refine ⟨hnames.cons idColumn, fun _ hmem => hunwanted ?_, fun _ => hnodup⟩
    rw [(mem_wantedNames.mp hmem).1, Bool.true_or]

/-! ## The statements of a type -/

/-- **Which columns statements list.** Let a declaration pass its checks. The inserts of a save, the
updates of entities and the selections of entities list columns of the type only: that of the
identity and those of the fields. An insert lists a column twice exactly if the entity has an
identity and a field of it writes the column of the identity; an update lists no column twice, and
sets that of the identity exactly if a field writes it; a selection lists a column twice exactly if
a field that is called like that of the identity is asked for. Nothing of that happens to types
without a stored field of that name, as are all whose identity is declared under it. In documents no
field stands under the key of the identity, whatever it is called. -/
theorem statement_columns {t : EntityType} {m : EntityMeta} (h : t.resolve = .ok m) :
    (∀ (u : UnitOfWork) (entities : List Json),
      Work.Asks (UnitOfWork.InsertsRow t m u.settings.zone) (u.save t entities)
        ∧ Work.Asks (UnitOfWork.UpdatesRow m u.settings.zone) (u.update t entities))
      ∧ (∀ wanted p, Projection.ofMeta m wanted = .ok p → p.columns.Sublist (allColumns m)
        ∧ (p.columns.Nodup ↔ ¬(Projection.isWanted wanted idColumn = true
          ∧ ∃ field ∈ Field.relational m.fields, field.name = idColumn)))
      ∧ ((∀ field ∈ Field.relational m.fields, field.name ≠ idColumn) →
        (allColumns m).Nodup ∧ ∀ zone body, ¬WritesColumn zone m body idColumn)
      ∧ (m.idField = idColumn → ∀ field ∈ Field.relational m.fields, field.name ≠ idColumn)
      ∧ ∀ (id : Int) (entity : Json) (d : Document), entity.IsValue →
        Document.ofEntity m id entity = .ok d →
        Document.idKey ∉ Keyed.keys d.fields ∧ d.toJson.field? Document.idKey = some (.int id) := by
  have hm := isChecked_resolve h
  refine ⟨fun u entities => ⟨UnitOfWork.asks_insertsRow h u entities,
      UnitOfWork.asks_updatesRow h u entities⟩, fun wanted p hp => columns_ofMeta hm hp,
    fun hclear => ⟨(nodup_allColumns hm).mpr hclear, fun _ _ => not_writesColumn hclear⟩,
    fun hid field hfield => ?_, fun id entity d => Document.idKey_notMem_ofEntity⟩
  rw [← hid]
  exact hm.identity field (List.mem_of_mem_filter (List.mem_of_mem_filter hfield))

/-- Tickets, whose identity is declared as `uid`, with a number that is called `id`. -/
def ticketType : EntityType where
  name := "Ticket"
  identity := ⟨"uid", "ticket", false⟩
  fields := [⟨"id", .string, false, false⟩, ⟨"seat", .int .w32, false, false⟩]
  layout := .record [⟨"uid", .int .w64⟩, ⟨"id", .text⟩, ⟨"seat", .int .w32⟩]
  key := "uid"

/-- Seats of tickets are selected with one column for the identity, tickets with two. -/
theorem statement_columns_ticket : ∃ m, ticketType.resolve = .ok m
    ∧ (∀ p, Projection.ofMeta m ["uid", "seat"] = .ok p → p.columns.Nodup)
    ∧ (∀ p, Projection.ofMeta m [] = .ok p → ¬p.columns.Nodup)
    ∧ ∀ (u : UnitOfWork) entities,
      Work.Asks (UnitOfWork.UpdatesRow m u.settings.zone) (u.update ticketType entities) := by
  let m : EntityMeta := ⟨"Ticket", "ticket", "uid", false, ticketType.fields⟩
  have resolved : ticketType.resolve = .ok m := by decide +kernel
  obtain ⟨hasks, hselects, -⟩ := statement_columns resolved
  refine ⟨m, resolved, fun p hp => ?_, fun p hp => ?_, fun u entities => (hasks u entities).2⟩
  · exact (hselects _ p hp).2.mpr fun hwanted => absurd hwanted.1 (by decide)
  · rw [(hselects _ p hp).2, not_not]
    exact ⟨rfl, ⟨"id", .string, false, false⟩, by decide, rfl⟩

/-- A ticket that is saved, updated and read: its insert and its selection list the column of the
identity twice, and its update sets it to the number of the ticket. -/
theorem column_listed_twice :
    let m : EntityMeta := ⟨"Ticket", "ticket", "uid", false, ticketType.fields⟩
    let u : UnitOfWork := { settings := {} }
    let ticket : Json := .obj [("uid", .int 5), ("id", .str "A7"), ("seat", .int 3)]
    let answer := RowsAndDocuments.answer "ticket"
    ticketType.resolve = .ok m
      ∧ (changesIn (Work.log answer (u.save ticketType [ticket]) {})).map Change.text
        = ["INSERT INTO ticket (id, id, seat) VALUES (?, ?, ?)"]
      ∧ (changesIn (Work.log answer (u.update ticketType [ticket]) {})).map Change.text
        = ["UPDATE ticket SET id = ?, seat = ? WHERE id = ?"]
      ∧ ∃ p, Projection.ofMeta m [] = .ok p ∧ p.columns = ["id", "id", "seat"] := by
  intro m u ticket answer
  exact ⟨by decide +kernel, by decide +kernel, by decide +kernel, _, ofMeta_all m, rfl⟩

end DualStore.Relational
