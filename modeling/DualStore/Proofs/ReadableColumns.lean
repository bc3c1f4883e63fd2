import DualStore.Proofs.ProjectedReads
import DualStore.Proofs.SavedRows

/-!
# Readable columns

What a field writes is checked by its form alone, and what is read from its column is checked
against the declared kind. So a value that does not conform to the kind is written, and its column
cannot be read: neither can the row, nor a list of entities with the row in it.

* `Writes.readColumn_error`, `ReadsBack`, `Writes.readsBack_iff`: the column of one field;
* `FieldsConform`, `RowOf.readRow_ok_iff`: the columns of a row;
* `not_decode_of_readable`, `readable_of_readRows`: the rows of a list;
* `saved_decode_iff`, `findList_decode`: what was saved, and lists of entities;
* `read_back_iff_conforms`: the main statement;
* `saved_unreadable`: a number too wide for its field.
-/

namespace DualStore.Relational

open Model

/-! ## Columns -/

section Columns

variable {zone : Calendar.Zone} {field : Field} {v : Json} {p : Value}

/-- The column of a value that does not conform to the declared kind cannot be read; the error says
the name of the field. -/
theorem Writes.readColumn_error (h : Writes zone field v p)
    (hdates : field.isDate = true → field.kind = .int .w64)
    (hexact : v.isExact Json.maxLevels = true) (hnot : ¬Conforms zone field v) :
    ∃ text expected, cellText (some p) = some text ∧ text ≠ "" ∧
      readColumn zone (Projection.bindingOf field) text
        = .error (.unreadable field.name text expected) := by
  cases h with
  | text hkind s => simp [Conforms, hkind] at hnot
  | @integer width hkind n hfits hplain =>
    have hread : Decimal.readInt64? (Decimal.intText n).toList = some n := by
      rw [Decimal.intText, String.toList_ofList]
      exact Decimal.readInt64?_intChars hfits
    have hwide : ¬Decimal.fitsBits width.bits n = true := by
      intro hwidth
      simp only [Conforms, hkind] at hnot
      exact hnot ⟨hwidth, fun hdate hpos => absurd ⟨hdate, hpos⟩ hplain⟩
    -- An integer of 64 bits conforms, so the width is another one and the column is none of dates.
    have hshort : ¬(width = .w64 ∧ field.isDate = true) := by
      rintro ⟨rfl, -⟩
      exact hwide hfits
    refine ⟨_, width.columnLabel, rfl, intText_ne_empty n, ?_⟩
    simp only [readColumn, Projection.bindingOf, hkind, hread]
    rw [if_neg hshort, if_neg hwide]
  | @date width hkind n hfits hdate text hwrite =>
    obtain rfl : width = .w64 := by
      have hlong := hdates hdate.1
      rw [hkind] at hlong
      exact FieldKind.int.inj hlong
    -- The writer asks that the instant lies in the calendar, the reader that its local time does.
    have hlocal : ¬Calendar.inCalendar ((n / 1000 + zone.seconds) / 86400) = true := by
      intro hlocal
      simp only [Conforms, hkind] at hnot
      exact hnot ⟨hfits, fun _ _ => hlocal⟩
    obtain ⟨hne, hint⟩ := Calendar.readInt64?_write? hwrite
    refine ⟨text, "date", rfl, hne, ?_⟩
    simp only [readColumn, Projection.bindingOf, hkind, hint, Calendar.read?_write? hwrite]
    rw [if_pos ⟨trivial, hdate.1⟩, if_neg hlocal]
  | @list element hkind items =>
    have helements : ¬items.all (isElement element) = true := by
      intro helements
      simp only [Conforms, hkind] at hnot
      exact hnot ⟨helements, hexact⟩
    refine ⟨_, "JSON array", rfl, text_ne_empty hexact, ?_⟩
    simp only [readColumn, Projection.bindingOf, hkind, Json.parse?_text hexact]
    rw [if_neg helements]
  | @map element hkind fields =>
    have helements : ¬fields.all (fun entry => isElement element entry.2) = true := by
      intro helements
      simp only [Conforms, hkind] at hnot
      exact hnot ⟨helements, hexact⟩
    refine ⟨_, "JSON object", rfl, text_ne_empty hexact, ?_⟩
    simp only [readColumn, Projection.bindingOf, hkind, Json.parse?_text hexact]
    rw [if_neg helements]

/-- What a field has written is read exactly if the value conforms to the declared kind. -/
theorem Writes.readCell_ok_iff (h : Writes zone field v p)
    (hdates : field.isDate = true → field.kind = .int .w64)
    (hexact : v.isExact Json.maxLevels = true) :
    (∃ read, readCell zone (Projection.bindingOf field) (cellText (some p)) = .ok read)
      ↔ Conforms zone field v := by
  constructor
  · rintro ⟨read, hread⟩
    by_contra hnot
    obtain ⟨text, expected, htext, hne, herror⟩ := h.readColumn_error hdates hexact hnot
    rw [htext, Relational.readCell, if_neg hne, herror] at hread
    cases hread
  · intro hconforms
    exact ⟨_, h.readCell_eq hdates hconforms⟩

/-- The column that keeps a parameter can be read, or its text is empty. -/
def ReadsBack (zone : Calendar.Zone) (b : Binding) (p : Value) : Prop :=
  ∃ text, cellText (some p) = some text ∧
    (text = "" ∨ ∃ value, readColumn zone b text = .ok value)

theorem readsBack_iff_readCell {b : Binding} {text : String}
    (htext : cellText (some p) = some text) :
    ReadsBack zone b p ↔ ∃ read, readCell zone b (cellText (some p)) = .ok read := by
  rw [ReadsBack, htext, readCell]
  by_cases hempty : text = ""
  · simp [hempty]
  · rw [if_neg hempty]
    cases hcolumn : readColumn zone b text <;> simp [hempty, hcolumn, Except.map]

/-- **What a field has written can be read back** exactly if the value conforms to the declared
kind. -/
theorem Writes.readsBack_iff (h : Writes zone field v p)
    (hdates : field.isDate = true → field.kind = .int .w64)
    (hexact : v.isExact Json.maxLevels = true) :
    ReadsBack zone (Projection.bindingOf field) p ↔ Conforms zone field v := by
  obtain ⟨text, htext⟩ : ∃ text, cellText (some p) = some text := by
    cases h <;> exact ⟨_, rfl⟩
  rw [readsBack_iff_readCell htext]
  exact h.readCell_ok_iff hdates hexact

/-- The column of a field can be read exactly if the value of the field is missing or null or
conforms to the declared kind. -/
theorem readCell_ok_iff (hdates : field.isDate = true → field.kind = .int .w64)
    (hkind : field.kind.isRelational = true) {value : Option Json}
    (hexact : ∀ v, value = some v → v.isExact Json.maxLevels = true) {bound : Option Value}
    (h : fieldParameter field value zone = .ok bound) :
    (∃ read, readCell zone (Projection.bindingOf field) (cellText bound) = .ok read)
      ↔ ∀ v, value = some v → v ≠ .null → Conforms zone field v := by
  constructor
  · rintro hread v rfl hnull
    obtain ⟨p, rfl, hwrites⟩ := exists_writes hnull hkind h
    exact (hwrites.readCell_ok_iff hdates (hexact v rfl)).mp hread
  · intro hconforms
    exact ⟨_, readCell_fieldParameter hdates hconforms h⟩

end Columns

/-! ## Rows -/

/-- The fields that have columns and are asked for conform to their declarations, nulls apart. -/
def FieldsConform (zone : Calendar.Zone) (m : EntityMeta) (wanted : List String) (body : Fields) :
    Prop :=
  ∀ field ∈ Field.relational m.fields, Projection.isWanted wanted field.name = true →
    ∀ v, Keyed.get? field.name body = some v → v ≠ .null → Conforms zone field v

/-- The texts of the fields that have columns give their values back. -/
def FieldsExact (m : EntityMeta) (body : Fields) : Prop :=
  ∀ field ∈ Field.relational m.fields, ∀ v, Keyed.get? field.name body = some v →
    v.isExact Json.maxLevels = true

/-- A row that an entity was written into. -/
def RowOf (zone : Calendar.Zone) (m : EntityMeta) (body : Fields)
    (text : String → Option String) : Prop :=
  ∃ values key, columnValues zone body (Field.persisted m.fields) = .ok values
    ∧ Decimal.fitsInt64 key = true ∧ text = rowText values key

section Rows

variable {zone : Calendar.Zone} {m : EntityMeta} {body : Fields} {text : String → Option String}
  {wanted : List String} {projection : Projection} {layout : Layout}

/-- Columns are read exactly if each of them is. -/
theorem readColumns_ok_iff (cells : List (Binding × Option String)) (before : Fields) :
    (∃ fields, readColumns zone before cells = .ok fields)
      ↔ ∀ cell ∈ cells, ∃ value, readCell zone cell.1 cell.2 = .ok value := by
  induction cells generalizing before with
  | nil => simp [readColumns]
  | cons cell rest ih =>
    obtain ⟨b, text⟩ := cell
    rw [readColumns_cons, List.forall_mem_cons]
    cases hcell : readCell zone b text with
    | error e => simp [bind, Except.bind]
    | ok value =>
      refine (ih _).trans ?_
      simp

/-- The columns that are asked for, each with how it is read. -/
def askedColumns (m : EntityMeta) (wanted : List String) : List (String × Binding) :=
  (if Projection.isWanted wanted idColumn || Projection.isWanted wanted m.idField then
      [(idColumn, ⟨m.idField, .int .w64, false⟩)]
    else [])
  ++ ((Field.relational m.fields).filter fun field => Projection.isWanted wanted field.name).map
    fun field => (field.name, Projection.bindingOf field)

theorem ofMeta_ok (h : Projection.ofMeta m wanted = .ok projection) :
    projection.columns = (askedColumns m wanted).map Prod.fst
      ∧ projection.bindings = (askedColumns m wanted).map Prod.snd := by
  have hmeta : Projection.ofMeta m wanted
      = if (askedColumns m wanted).isEmpty then .error (.unknownFields m.typeName)
        else .ok ⟨(askedColumns m wanted).map Prod.fst, (askedColumns m wanted).map Prod.snd⟩ := rfl
  rw [hmeta] at h
  split at h
  · cases h
  · rw [← Except.ok.inj h]
    exact ⟨rfl, rfl⟩

/-- **The row of an entity can be read** exactly if the fields that are asked for conform to their
declarations. -/
theorem RowOf.readRow_ok_iff (h : RowOf zone m body text) (hm : m.IsChecked)
    (hid : ∀ field ∈ m.fields, field.name ≠ idColumn) (hexact : FieldsExact m body)
    (hprojection : Projection.ofMeta m wanted = .ok projection) :
    (∃ fields, readRow zone projection.bindings (projection.columns.map text) = .ok fields)
      ↔ FieldsConform zone m wanted body := by
  obtain ⟨values, key, hvalues, hfits, rfl⟩ := h
  obtain ⟨hcolumns, hbindings⟩ := ofMeta_ok hprojection
  have hlength : projection.bindings.length
      = (projection.columns.map (rowText values key)).length := by
    rw [hcolumns, hbindings]
    simp
  have hkey : readCell zone ⟨m.idField, .int .w64, false⟩ (rowText values key idColumn)
      = .ok (some (.int key)) := by
    have hwide : Decimal.fitsBits IntWidth.w64.bits key = true := hfits
    rw [rowText, if_pos rfl]
    exact readCell_integer rfl hwide
  have hpersisted : (Field.persisted m.fields).Sublist m.fields := List.filter_sublist
  have hcell : ∀ field ∈ Field.relational m.fields,
      ((∃ value, readCell zone (Projection.bindingOf field) (rowText values key field.name)
        = .ok value)
      ↔ ∀ v, Keyed.get? field.name body = some v → v ≠ .null → Conforms zone field v) := by
    intro field hfield
    have hstored : field ∈ Field.persisted m.fields := List.mem_of_mem_filter hfield
    have hdeclared : field ∈ m.fields := hpersisted.subset hstored
    have hbound := get?_columnValues hvalues (hm.names.sublist (hpersisted.map _)) hstored
    rw [rowText, if_neg (hid field hdeclared)]
    have hkind : field.kind.isRelational = true := (List.mem_filter.mp hfield).2
    exact readCell_ok_iff (hm.dates field hdeclared) hkind (hexact field hfield) hbound
  rw [readRow, if_pos hlength, readColumns_ok_iff, hcolumns, hbindings, List.map_map,
    List.zip_map', List.forall_mem_map, askedColumns, List.forall_mem_append, List.forall_mem_map]
  constructor
  · rintro ⟨-, hfields⟩ field hfield hwanted
    exact (hcell field hfield).mp (hfields field (List.mem_filter.mpr ⟨hfield, hwanted⟩))
  · intro hconform
    refine ⟨?_, ?_⟩
    · intro cell hmem
      split at hmem
      · rw [List.mem_singleton.mp hmem]
        exact ⟨_, hkey⟩
      · cases hmem
    · intro field hmem
      obtain ⟨hfield, hwanted⟩ := List.mem_filter.mp hmem
      exact (hcell field hfield).mpr (hconform field hfield hwanted)

/-! ## Lists -/

/-- Reading rows that can all be read does not fail in reading their columns. -/
theorem not_decode_of_readable {bindings : List Binding} {rows : List RawRow}
    (h : ∀ row ∈ rows, ∃ fields, readRow zone bindings row = .ok fields) (e : DecodeError) :
    Projection.readRows zone bindings layout rows ≠ .error (.decode e) := by
  induction rows with
  | nil => simp [Projection.readRows]
  | cons row rest ih =>
    obtain ⟨⟨fields, hfields⟩, hrest⟩ := List.forall_mem_cons.mp h
    rw [Projection.readRows, hfields]
    cases hread : layout.read? (.obj fields) with
    | none => simp [bind, Except.bind, hread]
    | some entity =>
      have hothers := ih hrest
      cases hresult : Projection.readRows zone bindings layout rest with
      | error other =>
        rw [hresult] at hothers
        simpa [bind, Except.bind, hread] using hothers
      | ok entities => simp [bind, Except.bind, hread]

/-- If entities are read, the columns of all rows are. -/
theorem readable_of_readRows {bindings : List Binding} {rows : List RawRow} {entities : List Json}
    (h : Projection.readRows zone bindings layout rows = .ok entities) :
    ∀ row ∈ rows, ∃ fields, readRow zone bindings row = .ok fields := by
  induction rows generalizing entities with
  | nil => simp
  | cons row rest ih =>
    rw [Projection.readRows] at h
    obtain ⟨fields, hfields, h⟩ := bind_eq_ok h
    cases hread : layout.read? (.obj fields) with
    | none => simp [hread] at h
    | some entity =>
      rw [hread] at h
      obtain ⟨others, hothers, -⟩ := bind_eq_ok h
      exact List.forall_mem_cons.mpr ⟨⟨fields, mapError_eq_ok.mp hfields⟩, ih hothers⟩

end Rows

namespace UnitOfWork

variable {σ : Type} {answer : (r : Request) → σ → r.Answer × σ}

/-- A list of entities is read from the rows that the database answers with. -/
theorem findList_eq {v : UnitOfWork} {t : EntityType} {c : Criteria} {q asked : Query}
    {projection : Projection} {page : Page} {s between after : σ} {answered : RawRows}
    (hselection : selection t c = .ok (q, projection))
    (hpage : Attempt.runWith answer (paginate v.settings.dialect c.page q) s
      = (.ok (asked, page), between))
    (hanswer : answer (.query asked) between
      = ((.ok answered : Except Sql.SqlError RawRows), after)) :
    (Work.runWith answer (findList v t c) s).1.1.result
      = Projection.readRows v.settings.zone projection.bindings t.layout answered.rows := by
  have hquery := Attempt.runWith_askQuery.mpr hanswer
  have hread : Attempt.runWith answer (do
      let answer ← askQuery asked
      Attempt.ofExcept (Projection.readRows v.settings.zone projection.bindings t.layout
        answer.rows)) between
        = (Projection.readRows v.settings.zone projection.bindings t.layout answered.rows,
          after) := by
    rw [Attempt.runWith_bind_of_ok hquery, Attempt.runWith_ofExcept]
  rw [Attempt.runWith] at hpage hread
  rw [findList, readCall, selectEntities, hselection]
  simp only [pagedRead, Work.runWith_bind, hpage, hread]
  rfl

/-- An entity whose row is there is found unless a field does not conform to its declaration. -/
theorem findById_decode_iff {row : σ → Int → Option (String → Option String)} {v : UnitOfWork}
    {t : EntityType} {m : EntityMeta} (hresolve : t.resolve = .ok m)
    (hid : ∀ field ∈ m.fields, field.name ≠ idColumn) (hkeeps : KeepsRows answer m row)
    {id : Int} (hne : id ≠ 0) (hfits : Decimal.fitsInt64 id = true) {body : Fields}
    (hexact : FieldsExact m body) {s : σ} (hrow : HasRow v.settings.zone m (row s) body id) :
    (∃ e, (Work.runWith answer (findById v t id) s).1.1 = .error (.decode e))
      ↔ ¬FieldsConform v.settings.zone m [] body := by
  have hm := isChecked_resolve hresolve
  obtain ⟨values, hvalues, htext⟩ := hrow
  have hkey : rowText values id idColumn = some (Decimal.intText id) := by rw [rowText, if_pos rfl]
  have hrowOf : RowOf v.settings.zone m body (rowText values id) :=
    ⟨values, id, hvalues, hfits, rfl⟩
  obtain ⟨names, after, hanswer⟩ := hkeeps.byId id s
  rw [htext] at hanswer
  have hreadable := hrowOf.readRow_ok_iff hm hid hexact (ofMeta_all m)
  rw [findById_row hresolve hne hfits hkey hanswer, ← hreadable, readRow_text hm hkey hfits]
  cases hcells : cellFields (cellOf v.settings.zone (rowText values id))
      (Field.relational m.fields) with
  | error e => simp [entityOf, Except.map]
  | ok fields =>
    cases hread : t.layout.read? (.obj ((m.idField, .int id) :: fields)) <;>
      simp [entityOf, Except.map, hread]

/-- **Reading a list** fails in no column if the fields that are asked for conform to their
declarations in all rows of entities, and fails if they do not in one of these rows. -/
theorem findList_decode {v : UnitOfWork} {t : EntityType} {m : EntityMeta}
    (hresolve : t.resolve = .ok m) (hid : ∀ field ∈ m.fields, field.name ≠ idColumn)
    {c : Criteria} {q asked : Query} {projection : Projection} {page : Page} {s between after : σ}
    {names : List String} {texts : List (String → Option String)}
    (hselection : selection t c = .ok (q, projection))
    (hpage : Attempt.runWith answer (paginate v.settings.dialect c.page q) s
      = (.ok (asked, page), between))
    (hanswer : answer (.query asked) between
      = ((.ok ⟨names, texts.map fun text => projection.columns.map text⟩ :
          Except Sql.SqlError RawRows), after)) :
    ((∀ text ∈ texts, ∃ body, RowOf v.settings.zone m body text ∧ FieldsExact m body
        ∧ FieldsConform v.settings.zone m c.fields body) →
      ∀ e, (Work.runWith answer (findList v t c) s).1.1.result ≠ .error (.decode e))
    ∧ ((∃ text ∈ texts, ∃ body, RowOf v.settings.zone m body text ∧ FieldsExact m body
        ∧ ¬FieldsConform v.settings.zone m c.fields body) →
      ∃ e, (Work.runWith answer (findList v t c) s).1.1.result = .error e) := by
  have hm := isChecked_resolve hresolve
  obtain ⟨declared, _, -, hdeclared, hprojection, -, -⟩ := selection_eq_ok hselection
  obtain rfl : m = declared :=
    Except.ok.inj ((EntityType.checked_of_resolve hresolve).symm.trans hdeclared)
  rw [findList_eq hselection hpage hanswer]
  constructor
  · intro hrows e
    refine not_decode_of_readable ?_ e
    rw [List.forall_mem_map]
    intro text htext
    obtain ⟨body, hrow, hexact, hconform⟩ := hrows text htext
    exact (hrow.readRow_ok_iff hm hid hexact hprojection).mpr hconform
  · rintro ⟨text, htext, body, hrow, hexact, hnot⟩
    cases hresult : Projection.readRows v.settings.zone projection.bindings t.layout
        (texts.map fun text => projection.columns.map text) with
    | error e => exact ⟨e, rfl⟩
    | ok entities =>
      have hread := readable_of_readRows hresult _ (List.mem_map_of_mem htext)
      exact absurd ((hrow.readRow_ok_iff hm hid hexact hprojection).mp hread) hnot

theorem fitsInt64_of_savedAs {t : EntityType} {autoId : Bool} {entity after : Json} {body : Fields}
    (h : IsSavedAs t autoId entity (.obj body) after) :
    Decimal.fitsInt64 (t.identityOf after) = true := by
  rcases h.adopted with rfl | ⟨_, key, _, rfl⟩
  · exact fitsInt64_identityOf t body
  · exact fitsInt64_identityOf t _

/-- **What was saved can be found** unless a field does not conform to its declaration. -/
theorem saved_decode_iff {row : σ → Int → Option (String → Option String)} {u after v : UnitOfWork}
    {t : EntityType} {m : EntityMeta} (hresolve : t.resolve = .ok m)
    (hid : ∀ field ∈ m.fields, field.name ≠ idColumn) (hkeeps : KeepsRows answer m row)
    (hzone : v.settings.zone = u.settings.zone) {entities saved : List Json} {s s' : σ}
    (hsaved : Work.runWith answer (save u t entities) s = (((.ok (), saved), after), s')) :
    List.Forall₂ (fun entity inserted => ∃ body, IsSavedAs t u.autoId entity (.obj body) inserted ∧
        (t.identityOf inserted ≠ 0 → ∃ text, row s' (t.identityOf inserted) = some text ∧
          RowOf u.settings.zone m body text ∧
          (FieldsExact m body →
            ((∃ e, (Work.runWith answer (findById v t (t.identityOf inserted)) s').1.1
                = .error (.decode e)) ↔ ¬FieldsConform u.settings.zone m [] body))))
      entities saved := by
  have hm := isChecked_resolve hresolve
  obtain ⟨hrows, -⟩ := insertAll_rows hm hid hkeeps (save_run hresolve hsaved)
  refine hrows.imp ?_
  rintro entity inserted ⟨body, hsavedAs, hrow⟩
  refine ⟨body, hsavedAs, fun hne => ?_⟩
  have hfits := fitsInt64_of_savedAs hsavedAs
  have hfound := hrow hne
  obtain ⟨values, hvalues, htext⟩ := hrow hne
  refine ⟨_, htext, ⟨values, _, hvalues, hfits, rfl⟩, fun hexact => ?_⟩
  rw [← hzone] at hfound ⊢
  exact findById_decode_iff hresolve hid hkeeps hne hfits hexact hfound

/-- **What is written can be read exactly if it conforms to the declaration.** A value that a field
writes can be read from the column exactly if it is of the declared kind. After entities were saved,
each of them that has an identity has its row, and finding it fails in a column exactly if some
field does not conform. A list of entities is read without a failure in a column if in all rows the
fields that are asked for conform, and is not read if they do not in one of the rows. -/
theorem read_back_iff_conforms {row : σ → Int → Option (String → Option String)} {u v : UnitOfWork}
    {t : EntityType} {m : EntityMeta} (hresolve : t.resolve = .ok m)
    (hid : ∀ field ∈ m.fields, field.name ≠ idColumn) (hkeeps : KeepsRows answer m row)
    (hzone : v.settings.zone = u.settings.zone) :
    (∀ (field : Field) (typeName : String) (zone : Calendar.Zone) (value : Json) (p : Value),
      checkFields typeName 0 [] [field] = .ok () → value.isExact Json.maxLevels = true →
      fieldParameter field (some value) zone = .ok (some p) →
      (ReadsBack zone (Projection.bindingOf field) p ↔ Conforms zone field value))
    ∧ (∀ (entities saved : List Json) (after : UnitOfWork) (s s' : σ),
      Work.runWith answer (save u t entities) s = (((.ok (), saved), after), s') →
      List.Forall₂ (fun entity inserted => ∃ body,
          IsSavedAs t u.autoId entity (.obj body) inserted ∧
          (t.identityOf inserted ≠ 0 → ∃ text, row s' (t.identityOf inserted) = some text ∧
            RowOf u.settings.zone m body text ∧
            (FieldsExact m body →
              ((∃ e, (Work.runWith answer (findById v t (t.identityOf inserted)) s').1.1
                  = .error (.decode e)) ↔ ¬FieldsConform u.settings.zone m [] body))))
        entities saved)
    ∧ ∀ (c : Criteria) (q asked : Query) (projection : Projection) (page : Page)
        (s between after : σ) (names : List String) (texts : List (String → Option String)),
      selection t c = .ok (q, projection) →
      Attempt.runWith answer (paginate v.settings.dialect c.page q) s
        = (.ok (asked, page), between) →
      answer (.query asked) between
        = ((.ok ⟨names, texts.map fun text => projection.columns.map text⟩ :
            Except Sql.SqlError RawRows), after) →
      ((∀ text ∈ texts, ∃ body, RowOf v.settings.zone m body text ∧ FieldsExact m body
          ∧ FieldsConform v.settings.zone m c.fields body) →
        ∀ e, (Work.runWith answer (findList v t c) s).1.1.result ≠ .error (.decode e))
      ∧ ((∃ text ∈ texts, ∃ body, RowOf v.settings.zone m body text ∧ FieldsExact m body
          ∧ ¬FieldsConform v.settings.zone m c.fields body) →
        ∃ e, (Work.runWith answer (findList v t c) s).1.1.result = .error e) := by
  refine ⟨?_, ?_, ?_⟩
  · intro field typeName zone value p hchecked hexact hwritten
    obtain ⟨-, -, hdates⟩ := checkFields_ok hchecked
    exact (writes_of_fieldParameter hwritten).readsBack_iff
      (hdates field (List.mem_singleton.mpr rfl)) hexact
  · intro entities saved after s s' hsaved
    exact saved_decode_iff hresolve hid hkeeps hzone hsaved
  · intro c q asked projection page s between after names texts hselection hpage hanswer
    exact findList_decode hresolve hid hselection hpage hanswer

/-! ## Parcels -/

def parcelType : EntityType where
  name := "Parcel"
  identity := ⟨"id", "parcel", false⟩
  fields := [⟨"weight", .int .w32, false, false⟩]
  layout := .anything
  key := "id"

/-- A parcel whose weight is too wide for its field. -/
def parcelBody : Fields := [("id", .int 1), ("weight", .int 3000000000)]

def parcelMeta : EntityMeta := ⟨"Parcel", "parcel", "id", false, parcelType.fields⟩

def parcelShape : Sql.TableDef where
  name := "parcel"
  columns := [⟨"id", .integer⟩, ⟨"weight", .integer⟩]

theorem hasTable_parcel : HasTable parcelMeta [parcelShape] := by
  refine ⟨parcelShape, rfl, ?_, ?_, ?_, ?_, ⟨_, _, by decide, rfl⟩, ?_⟩ <;> decide +kernel

def parcelBackend : KeptBackend [parcelShape] :=
  .ofTable ⟨parcelShape, [], 0⟩ ⟨by simp, by simp, by simp⟩

/-- What saving the parcel gives. -/
def savedParcel : ((Except Failure Unit × List Json) × UnitOfWork) × KeptBackend [parcelShape] :=
  Work.runWith (KeptBackend.answer "a") (save plainWork parcelType [.obj parcelBody]) parcelBackend

theorem savedParcel_eq :
    savedParcel = (((.ok (), [.obj parcelBody]), savedParcel.1.2), savedParcel.2) := by
  rfl

/-- The columns of the row of the parcel, as texts. -/
def parcelTexts : String → Option String :=
  rowTexts parcelMeta parcelShape [.integer 1, .integer 3000000000]

theorem row_savedParcel : KeptBackend.row "a" parcelMeta savedParcel.2 1 = some parcelTexts := rfl

/-- The statement that selects all parcels. -/
def parcelQuery : Query := .matching (allColumns parcelMeta) "parcel" [] []

theorem parcels_listed : ∃ after, KeptBackend.answer "a" (.query parcelQuery) savedParcel.2
    = ((.ok ⟨["id", "weight"], [parcelTexts].map fun text => (allColumns parcelMeta).map text⟩ :
        Except Sql.SqlError RawRows), after) := by
  have hlisted : Except.toOption (KeptBackend.answer "a" (.query parcelQuery) savedParcel.2).1
      = some ⟨["id", "weight"], [[some "1", some "3000000000"]]⟩ := by
    decide +kernel
  have htexts : [[some "1", some "3000000000"]]
      = [parcelTexts].map fun text => (allColumns parcelMeta).map text := by
    decide +kernel
  rw [htexts] at hlisted
  have hok := eq_ok_of_toOption hlisted
  exact ⟨(KeptBackend.answer "a" (.query parcelQuery) savedParcel.2).2, Prod.ext hok rfl⟩

theorem exact_parcel : FieldsExact parcelMeta parcelBody := by
  intro field hfield value hvalue
  obtain rfl := List.mem_singleton.mp hfield
  rw [← Option.some.inj (hvalue : some (Json.int 3000000000) = some value)]
  rfl

theorem not_conforms_parcel : ¬FieldsConform .universal parcelMeta [] parcelBody := by
  intro hconform
  have hwidth := hconform ⟨"weight", .int .w32, false, false⟩ (List.mem_singleton.mpr rfl) rfl
    (.int 3000000000) rfl (by simp)
  exact absurd hwidth.1 (by decide)

theorem read_back_iff_conforms_parcel :
    (∃ e, (Work.runWith (KeptBackend.answer "a") (findById plainWork parcelType 1)
        savedParcel.2).1.1 = .error (.decode e))
      ∧ ∃ e, (Work.runWith (KeptBackend.answer "a") (findList plainWork parcelType (.of parcelType))
          savedParcel.2).1.1.result = .error e := by
  have hresolve : parcelType.resolve = .ok parcelMeta := rfl
  obtain ⟨-, hsaves, hlists⟩ := read_back_iff_conforms (u := plainWork) (v := plainWork) hresolve
    (by decide) (keepsRows_backend hasTable_parcel "a") rfl
  cases hsaves _ _ _ _ _ savedParcel_eq with
  | cons hparcel _ =>
    obtain ⟨body, hsavedAs, hread⟩ := hparcel
    obtain rfl : body = parcelBody := Json.obj.inj hsavedAs.assigned
    have hid : parcelType.identityOf (.obj parcelBody) = 1 := rfl
    rw [hid, row_savedParcel] at hread
    obtain ⟨text, htext, hrow, hfound⟩ := hread (by decide)
    obtain rfl := Option.some.inj htext
    refine ⟨(hfound exact_parcel).mpr not_conforms_parcel, ?_⟩
    obtain ⟨after, hanswer⟩ := parcels_listed
    have hlist := hlists (.of parcelType) parcelQuery parcelQuery
      ⟨allColumns parcelMeta, allBindings parcelMeta⟩ _ savedParcel.2 savedParcel.2 after _ _ 
      rfl rfl hanswer
    exact hlist.2 ⟨_, List.mem_singleton.mpr rfl, _, hrow, exact_parcel, not_conforms_parcel⟩

/-- A number that is too wide for its field is written and cannot be read. The parcel with such a
weight is saved, and neither is it found again nor is a list read with it. A field that is called
like the column of the identity is no better off: its text conforms and is no identity. -/
theorem saved_unreadable :
    let weight : Field := ⟨"weight", .int .w32, false, false⟩
    let e : DecodeError := .unreadable "weight" "3000000000" "int32"
    let label : Field := ⟨"id", .string, false, false⟩
    let m : EntityMeta := ⟨"Label", "label", "uid", false, [label]⟩
    (checkFields "Parcel" 0 [] [weight] = .ok ()
      ∧ fieldParameter weight (some (.int 3000000000)) .universal
        = .ok (some (.integer 3000000000))
      ∧ ¬ReadsBack .universal (Projection.bindingOf weight) (.integer 3000000000)
      ∧ savedParcel.1.1.1 = .ok ()
      ∧ (Work.runWith (KeptBackend.answer "a") (findById plainWork parcelType 1)
          savedParcel.2).1.1 = .error (.decode e)
      ∧ (Work.runWith (KeptBackend.answer "a") (findList plainWork parcelType (.of parcelType))
          savedParcel.2).1.1.result = .error (.decode e))
    ∧ columnValues .universal [("id", .str "a")] [label] = .ok [("id", .text "a")]
      ∧ FieldsConform .universal m [] [("id", .str "a")]
      ∧ readRow .universal (allBindings m) ((allColumns m).map fun column =>
          cellText (Keyed.get? column [("id", .text "a")]))
        = .error (.unreadable "uid" "a" "int64") := by
  have hwrites : Writes .universal ⟨"weight", .int .w32, false, false⟩ (.int 3000000000)
      (.integer 3000000000) := .integer rfl (by decide) (by simp)
  have hwide : ¬Conforms .universal ⟨"weight", .int .w32, false, false⟩ (.int 3000000000) :=
    fun hconforms => absurd hconforms.1 (by decide)
  refine ⟨⟨rfl, rfl, ?_, ?_, ?_, ?_⟩, rfl, ?_, rfl⟩
  · exact fun hread => hwide ((hwrites.readsBack_iff (by simp) rfl).mp hread)
  · rw [savedParcel_eq]
  · obtain ⟨names, after, hanswer⟩ :=
      (keepsRows_backend hasTable_parcel "a").byId 1 savedParcel.2
    rw [row_savedParcel] at hanswer
    rw [findById_row (m := parcelMeta) rfl (by decide) rfl rfl hanswer]
    rfl
  · obtain ⟨after, hanswer⟩ := parcels_listed
    have hselection : selection parcelType (.of parcelType)
        = .ok (parcelQuery, ⟨allColumns parcelMeta, allBindings parcelMeta⟩) := rfl
    rw [findList_eq hselection rfl hanswer]
    rfl
  · intro field hfield _ value hvalue _
    obtain rfl := List.mem_singleton.mp hfield
    rw [← Option.some.inj (hvalue : some (Json.str "a") = some value)]
    trivial

end UnitOfWork

end DualStore.Relational
