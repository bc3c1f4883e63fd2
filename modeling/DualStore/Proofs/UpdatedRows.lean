import DualStore.Proofs.SavedRows

/-!
# Updated entities found again

An update overwrites the columns that the entity writes and leaves the others as they are. A field
that is null or missing writes no column, so what the row held before is still read from it.

* `updatedCell`: what a field is read as behind an update;
* `update_row`: what an update does to the rows;
* `found_as_updated`: updating an entity, and finding it;
* `null_field_kept`: a field that is null does not come back as missing.
-/

namespace DualStore.Relational

open Model

variable {σ : Type} {answer : (r : Request) → σ → r.Answer × σ}

/-! ## Cells behind an update -/

/-- What a field is read as behind an update: a field that is null or missing as what the row held
before, any other as what it comes back as. -/
def updatedCell (zone : Calendar.Zone) (body : Fields) (text : String → Option String)
    (field : Field) : Except DecodeError (Option Json) :=
  match Keyed.get? field.name body with
  | none => cellOf zone text field
  | some .null => cellOf zone text field
  | some value => .ok (restored field (some value))

theorem updatedCell_of_given {zone : Calendar.Zone} {body : Fields}
    {text : String → Option String} {field : Field} {value : Json}
    (hvalue : Keyed.get? field.name body = some value) (hne : value ≠ .null) :
    updatedCell zone body text field = .ok (restored field (Keyed.get? field.name body)) := by
  rw [updatedCell, hvalue]
  cases value <;> first | rfl | exact absurd rfl hne

/-- **The column of a field behind an update** is read as what the field comes back as, or as before
if the field writes nothing. -/
theorem cellOf_overwritten {zone : Calendar.Zone} {body : Fields} {fields : List Field}
    {values : List (String × Value)} (hvalues : columnValues zone body fields = .ok values)
    (hnames : (fields.map Field.name).Nodup) {field : Field} (hfield : field ∈ fields)
    (hdates : field.isDate = true → field.kind = .int .w64)
    (hconforms : ∀ v, Keyed.get? field.name body = some v → v ≠ .null → Conforms zone field v)
    (text : String → Option String) :
    cellOf zone (overwritten values text) field = updatedCell zone body text field := by
  have hbound := get?_columnValues hvalues hnames hfield
  by_cases hskipped : Keyed.get? field.name body = none ∨ Keyed.get? field.name body = some .null
  · have hkept : Keyed.get? field.name values = none := by
      rcases hskipped with hnone | hnull
      · rw [hnone] at hbound
        exact (Except.ok.inj hbound).symm
      · rw [hnull] at hbound
        exact (Except.ok.inj hbound).symm
    have hcell : cellOf zone (overwritten values text) field = cellOf zone text field := by
      rw [cellOf, cellOf, overwritten, hkept]
    rw [hcell, updatedCell]
    rcases hskipped with hnone | hnull
    · rw [hnone]
    · rw [hnull]
  · rw [not_or] at hskipped
    obtain ⟨value, hvalue⟩ := Option.ne_none_iff_exists'.mp hskipped.1
    have hne : value ≠ .null := fun heq => hskipped.2 (heq ▸ hvalue)
    rw [updatedCell_of_given hvalue hne, ← readCell_fieldParameter hdates hconforms hbound]
    rw [hvalue] at hbound
    obtain ⟨p, hp, -⟩ := exists_writes hne (hconforms value hvalue hne).isRelational hbound
    rw [cellOf, overwritten, hp]

/-! ## Updating -/

namespace UnitOfWork

/-- **Updating an entity** that succeeds overwrites the columns that the entity writes in the row of
its identity, and leaves the other rows as they are. -/
theorem updateEntity_row {row : σ → Int → Option (String → Option String)} {zone : Calendar.Zone}
    {t : EntityType} {m : EntityMeta} (hm : m.IsChecked)
    (hid : ∀ field ∈ m.fields, field.name ≠ idColumn) (hupdates : UpdatesRows answer m row)
    {body : Fields} {s after : σ}
    (h : Attempt.runWith answer (updateEntity zone t m (.obj body)) s = (.ok (), after)) :
    t.identityOf (.obj body) ≠ 0 ∧
      ∃ values, columnValues zone body (Field.persisted m.fields) = .ok values ∧
        row after (t.identityOf (.obj body))
          = (row s (t.identityOf (.obj body))).map (overwritten values) ∧
        ∀ other, other ≠ t.identityOf (.obj body) → row after other = row s other := by
  rw [updateEntity] at h
  by_cases hzero : t.identityOf (.obj body) = 0
  · rw [if_pos hzero, Attempt.runWith_throw] at h
    exact absurd (Prod.mk.inj h).1 (by simp)
  rw [if_neg hzero] at h
  obtain ⟨object, _, hobject, h⟩ := Attempt.runWith_bind_ok h
  obtain ⟨hbody, rfl⟩ := Attempt.runWith_lift_ok hobject
  obtain rfl : body = object := Except.ok.inj hbody
  obtain ⟨values, _, hcolumns, h⟩ := Attempt.runWith_bind_ok h
  obtain ⟨hvalues, rfl⟩ := Attempt.runWith_lift_ok hcolumns
  by_cases hempty : values.isEmpty = true
  · rw [if_pos hempty, Attempt.runWith_throw] at h
    exact absurd (Prod.mk.inj h).1 (by simp)
  rw [if_neg hempty] at h
  obtain ⟨outcome, between, hchange, h⟩ := Attempt.runWith_bind_ok h
  obtain ⟨_, rfl⟩ := Prod.mk.inj h
  rw [Attempt.runWith_askChange] at hchange
  -- The columns of an update are those of an insert without an identity.
  have hne : insertedColumns 0 values ≠ [] := by simpa [insertedColumns] using hempty
  have hgoes := goesWith_insertedColumns hm hid hvalues hne
  simp only [insertedColumns, if_true] at hgoes
  exact ⟨hzero, values, hvalues, hupdates.update hgoes (idColumn_notMem hid hvalues) hchange⟩

/-- Updating one entity that succeeds has updated its row; what is kept for replication asks
nothing. -/
theorem update_run {u after : UnitOfWork} {t : EntityType} {m : EntityMeta}
    (hresolve : t.resolve = .ok m) {entity : Json} {s s' : σ}
    (h : Work.runWith answer (update u t [entity]) s = ((.ok (), after), s')) :
    Attempt.runWith answer (updateEntity u.settings.zone t m entity) s = (.ok (), s') := by
  have hchecked : Attempt.runWith answer (Attempt.ofExcept t.checked) s = (.ok m, s) := by
    rw [Attempt.runWith_ofExcept, EntityType.checked_of_resolve hresolve]
  rw [update, Work.runWith_bind, ← Attempt.runWith, List.isEmpty_cons, if_neg Bool.false_ne_true,
    Attempt.runWith_bind_of_ok hchecked, updateAll, Attempt.runWith_bind, Attempt.runWith_bind] at h
  cases hrun : Attempt.runWith answer (updateEntity u.settings.zone t m entity) s with
  | mk result between =>
    rw [hrun] at h
    cases result with
    | error e => exact absurd (Prod.mk.inj (Prod.mk.inj h).1).1 (by simp)
    | ok _ =>
      obtain ⟨_, rfl⟩ := Prod.mk.inj h
      rfl

/-- **An updated entity is found with the fields that it gave**, and with what its row held before
in the fields that were null or missing. For checked metadata without a field that is called like
the column of the identity, for every zone and every database that updates rows. -/
theorem found_as_updated {row : σ → Int → Option (String → Option String)}
    {u after v : UnitOfWork} {t : EntityType} {m : EntityMeta} (hresolve : t.resolve = .ok m)
    (hid : ∀ field ∈ m.fields, field.name ≠ idColumn) (hupdates : UpdatesRows answer m row)
    (hzone : v.settings.zone = u.settings.zone) {body : Fields} {s s' : σ}
    {text : String → Option String} (hrow : row s (t.identityOf (.obj body)) = some text)
    (hconforms : ∀ field ∈ Field.relational m.fields, ∀ value,
      Keyed.get? field.name body = some value → value ≠ .null →
        Conforms u.settings.zone field value)
    (hupdated : Work.runWith answer (update u t [.obj body]) s = ((.ok (), after), s')) :
    (Work.runWith answer (findById v t (t.identityOf (.obj body))) s').1.1
        = entityOf t m (t.identityOf (.obj body))
            (cellFields (updatedCell u.settings.zone body text) (Field.relational m.fields)) ∧
      ((∀ field ∈ Field.relational m.fields, ∃ value,
          Keyed.get? field.name body = some value ∧ value ≠ .null) →
        (Work.runWith answer (findById v t (t.identityOf (.obj body))) s').1.1
          = foundEntity t m (t.identityOf (.obj body)) body) ∧
      ∀ other, other ≠ t.identityOf (.obj body) → row s' other = row s other := by
  have hm := isChecked_resolve hresolve
  obtain ⟨hne, values, hvalues, hafter, hothers⟩ :=
    updateEntity_row hm hid hupdates (update_run hresolve hupdated)
  rw [hrow, Option.map_some] at hafter
  obtain ⟨names, behind, hanswer⟩ := hupdates.byId (t.identityOf (.obj body)) s'
  rw [hafter] at hanswer
  have hfound := findById_row (v := v) hresolve hne (fitsInt64_identityOf t body)
    (hupdates.keyed _ _ _ hafter) hanswer
  have hpersisted : (Field.persisted m.fields).Sublist m.fields := List.filter_sublist
  have hcells : ∀ field ∈ Field.relational m.fields,
      cellOf u.settings.zone (overwritten values text) field
        = updatedCell u.settings.zone body text field := by
    intro field hfield
    have hstored : field ∈ Field.persisted m.fields := List.mem_of_mem_filter hfield
    exact cellOf_overwritten hvalues (hm.names.sublist (hpersisted.map _)) hstored
      (hm.dates field (hpersisted.subset hstored)) (hconforms field hfield) text
  rw [hzone, cellFields_congr hcells] at hfound
  refine ⟨hfound, fun hgiven => ?_, hothers⟩
  have hrestored : ∀ field ∈ Field.relational m.fields,
      updatedCell u.settings.zone body text field
        = .ok (restored field (Keyed.get? field.name body)) := by
    intro field hfield
    obtain ⟨value, hvalue, hvalueNe⟩ := hgiven field hfield
    exact updatedCell_of_given hvalue hvalueNe
  rw [hfound, cellFields_restored hrestored]
  rfl

def clearedNote : Fields :=
  [("id", .int 7), ("title", .null), ("size", .int (-128)), ("born", .int 1500),
    ("tags", .arr [])]

def titledBackend : KeptBackend [noteShape] :=
  .ofTable ⟨noteShape, [[.integer 7, .text "plans", .integer 3, .null, .null], otherNote], 8⟩
    ⟨by simp [otherNote], by simp [otherNote, noteShape], by decide⟩

/-- What clearing the title gives. -/
def updatedNote : (Except Failure Unit × UnitOfWork) × KeptBackend [noteShape] :=
  Work.runWith (KeptBackend.answer "a") (update plainWork noteType [.obj clearedNote]) titledBackend

theorem updatedNote_eq : updatedNote = ((.ok (), updatedNote.1.2), updatedNote.2) := by
  have hok : updatedNote.1.1.toOption = some () := by decide +kernel
  rw [← eq_ok_of_toOption hok]

theorem conforms_clearedNote : ∀ field ∈ Field.relational noteType.fields, ∀ value,
    Keyed.get? field.name clearedNote = some value → value ≠ .null →
      Conforms .universal field value := by
  intro field hfield value hvalue hne
  rcases mem_relational_noteType hfield with rfl | rfl | rfl | rfl
  · exact absurd (Option.some.inj (hvalue : some Json.null = some value)).symm hne
  · rw [← Option.some.inj (hvalue : some (Json.int (-128)) = some value)]
    exact ⟨by decide, by simp⟩
  · rw [← Option.some.inj (hvalue : some (Json.int 1500) = some value)]
    exact ⟨by decide, fun _ _ => by decide +kernel⟩
  · rw [← Option.some.inj (hvalue : some (Json.arr []) = some value)]
    exact ⟨rfl, rfl⟩

theorem row_titledBackend : KeptBackend.row "a" noteMeta titledBackend 7
    = some (rowTexts noteMeta noteShape [.integer 7, .text "plans", .integer 3, .null, .null]) :=
  rfl

theorem found_as_updated_note :
    (Work.runWith (KeptBackend.answer "a") (findById plainWork noteType 7) updatedNote.2).1.1
      = .ok (some (.obj [("id", .int 7), ("title", .str "plans"), ("size", .int (-128)),
          ("born", .int 1000), ("tags", .arr [])])) := by
  have hresolve : noteType.resolve = .ok noteMeta := rfl
  have hid : noteType.identityOf (.obj clearedNote) = 7 := rfl
  have hfound := (found_as_updated (v := plainWork) hresolve (by decide)
    (updatesRows_backend hasTable_note "a") rfl row_titledBackend conforms_clearedNote
    updatedNote_eq).1
  rw [hid] at hfound
  rw [hfound]
  rfl

/-- Whether what is found has a title. -/
def hasTitle : Except Failure (Option Json) → Bool
  | .ok (some note) => (Json.field? "title" note).isSome
  | _ => false

/-- A field that is null does not come back as missing: its column keeps what it held. -/
theorem null_field_kept :
    ¬∀ (m : EntityMeta) (body : Fields) (s : KeptBackend [noteShape]), noteType.resolve = .ok m →
      (∀ field ∈ m.fields, field.name ≠ idColumn) →
      UpdatesRows (@KeptBackend.answer [noteShape] "a") m (KeptBackend.row "a" m) →
      (KeptBackend.row "a" m s (noteType.identityOf (.obj body))).isSome = true →
      (∀ field ∈ Field.relational m.fields, ∀ value, Keyed.get? field.name body = some value →
        value ≠ .null → Conforms .universal field value) →
      (Work.runWith (KeptBackend.answer "a") (update plainWork noteType [.obj body]) s).1.1
        = .ok () →
      (Work.runWith (KeptBackend.answer "a")
        (findById plainWork noteType (noteType.identityOf (.obj body)))
        (Work.runWith (KeptBackend.answer "a") (update plainWork noteType [.obj body]) s).2).1.1
        = foundEntity noteType m (noteType.identityOf (.obj body)) body := by
  intro h
  have hrun : Work.runWith (KeptBackend.answer "a") (update plainWork noteType [.obj clearedNote])
      titledBackend = updatedNote := rfl
  have hsame := h noteMeta clearedNote titledBackend rfl (by decide)
    (updatesRows_backend hasTable_note "a") rfl conforms_clearedNote
  rw [hrun] at hsame
  have hdone : updatedNote.1.1 = .ok () := by rw [updatedNote_eq]
  have hkept : hasTitle (Work.runWith (KeptBackend.answer "a")
      (findById plainWork noteType (noteType.identityOf (.obj clearedNote)))
      updatedNote.2).1.1 = true := by
    decide +kernel
  have hcleared : hasTitle (foundEntity noteType noteMeta
      (noteType.identityOf (.obj clearedNote)) clearedNote) = false := by
    decide +kernel
  rw [hsame hdone, hcleared] at hkept
  cases hkept

end UnitOfWork

end DualStore.Relational
