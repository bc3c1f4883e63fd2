import Mathlib.Data.List.Nodup
import DualStore.Document.Entity
import DualStore.Proofs.KeyedEntries
import DualStore.Relational.Projection

/-!
# Checked declarations

What the checks of a declaration promise of the metadata, and where the fields of an entity are
found again: among the columns that are written for it, and in its document.

* `EntityMeta.IsChecked`, `isChecked_resolve`: what holds of metadata;
* `mem_columnValues`: the columns that an entity writes;
* `ignores`, `get?_dropIgnored_eq`: the fields that are left when the ignored ones are dropped;
* `field?_ofEntity`: the fields of the document of an entity.
-/

namespace DualStore.Model

/-- What the checks of a declaration promise: no name is given twice, the name of the identity
included, and only fields of 64 bits are dates. -/
structure EntityMeta.IsChecked (m : EntityMeta) : Prop where
  names : (m.fields.map Field.name).Nodup
  identity : ∀ field ∈ m.fields, field.name ≠ m.idField
  dates : ∀ field ∈ m.fields, field.isDate = true → field.kind = .int .w64

theorem checkFields_ok {typeName : String} {fields : List Field} {index : Nat}
    {taken : List String} (h : checkFields typeName index taken fields = .ok ()) :
    (fields.map Field.name).Nodup ∧ (∀ field ∈ fields, field.name ∉ taken)
      ∧ ∀ field ∈ fields, field.isDate = true → field.kind = .int .w64 := by
  induction fields generalizing index taken with
  | nil => simp
  | cons field rest ih =>
    rw [checkFields] at h
    split at h
    · simp at h
    · split at h
      · simp at h
      · rename_i htaken
        split at h
        · simp at h
        · rename_i hdate
          obtain ⟨hnames, hfresh, hdates⟩ := ih h
          refine ⟨?_, List.forall_mem_cons.mpr ⟨htaken, ?_⟩,
            List.forall_mem_cons.mpr ⟨?_, hdates⟩⟩
          · rw [List.map_cons, List.nodup_cons]
            refine ⟨fun hmem => ?_, hnames⟩
            obtain ⟨other, hother, heq⟩ := List.mem_map.mp hmem
            exact hfresh other hother (by simp [heq])
          · intro other hother hmem
            exact hfresh other hother (List.mem_cons_of_mem _ hmem)
          · intro hisDate
            by_contra hkind
            exact hdate ⟨hisDate, hkind⟩

/-- Metadata comes out of the checks only if it is checked. -/
theorem isChecked_resolve {t : EntityType} {m : EntityMeta} (h : t.resolve = .ok m) :
    m.IsChecked := by
  unfold EntityType.resolve at h
  split at h
  · simp at h
  · split at h
    · simp at h
    · cases hcheck : checkFields t.name 0 [t.identity.name] t.fields with
      | error e => simp [hcheck, bind, Except.bind] at h
      | ok _ =>
        simp only [hcheck, bind, Except.bind, Except.ok.injEq] at h
        subst h
        obtain ⟨hnames, hfresh, hdates⟩ := checkFields_ok hcheck
        refine ⟨hnames, fun field hfield heq => hfresh field hfield ?_, hdates⟩
        simp [heq]

/-- A field that is not ignored shares its name with no ignored one. -/
theorem EntityMeta.IsChecked.ne_of_ignored {m : EntityMeta} (h : m.IsChecked)
    {field other : Field} (hfield : field ∈ m.fields) (hother : other ∈ m.fields)
    (hkept : field.ignored = false) (hignored : other.ignored = true) :
    other.name ≠ field.name := by
  intro heq
  have := List.inj_on_of_nodup_map h.names hother hfield heq
  rw [this, hkept] at hignored
  exact Bool.false_ne_true hignored

end DualStore.Model

namespace DualStore.Relational

open Model

theorem columnValues_cons {zone : Calendar.Zone} {body : Fields} {field : Field}
    {rest : List Field} {values : List (String × Value)}
    (h : columnValues zone body (field :: rest) = .ok values) :
    ∃ v others, fieldParameter field (Keyed.get? field.name body) zone = .ok v
      ∧ columnValues zone body rest = .ok others
      ∧ values = (v.toList.map fun v => (field.name, v)) ++ others := by
  rw [columnValues] at h
  cases hv : fieldParameter field (Keyed.get? field.name body) zone with
  | error e => simp [hv, bind, Except.bind] at h
  | ok v =>
    cases hothers : columnValues zone body rest with
    | error e => simp [hv, hothers, bind, Except.bind] at h
    | ok others =>
      simp only [hv, hothers, bind, Except.bind, Except.ok.injEq] at h
      exact ⟨v, others, rfl, rfl, h.symm⟩

/-- The parameter of a field is among the columns that its entity writes. -/
theorem mem_columnValues {zone : Calendar.Zone} {body : Fields} {fields : List Field}
    {values : List (String × Value)} (h : columnValues zone body fields = .ok values)
    {field : Field} (hfield : field ∈ fields) {v : Value}
    (hv : fieldParameter field (Keyed.get? field.name body) zone = .ok (some v)) :
    (field.name, v) ∈ values := by
  induction fields generalizing values with
  | nil => simp at hfield
  | cons other rest ih =>
    obtain ⟨w, others, hw, hothers, rfl⟩ := columnValues_cons h
    rcases List.mem_cons.mp hfield with rfl | hfield
    · rw [hw, Except.ok.injEq] at hv
      simp [hv]
    · exact List.mem_append_right _ (ih hothers hfield)

end DualStore.Relational

namespace DualStore.Document

open Model

theorem nodup_dropIgnored {fields : Fields} (h : (Keyed.keys fields).Nodup)
    (declared : List Field) : (Keyed.keys (dropIgnored fields declared)).Nodup := by
  induction declared generalizing fields with
  | nil => exact h
  | cons field rest ih =>
    rw [dropIgnored]
    apply ih
    split
    · exact Keyed.nodup_swapErase h _
    · exact h

theorem mem_of_mem_dropIgnored {fields : Fields} (h : (Keyed.keys fields).Nodup)
    {declared : List Field} {entry : String × Json} (hentry : entry ∈ dropIgnored fields declared) :
    entry ∈ fields := by
  induction declared generalizing fields with
  | nil => exact hentry
  | cons field rest ih =>
    rw [dropIgnored] at hentry
    split at hentry
    · exact ((Keyed.mem_swapErase h _ _).mp (ih (Keyed.nodup_swapErase h _) hentry)).1
    · exact ih h hentry

/-- Whether an ignored field of a name is declared. -/
def ignores (declared : List Field) (key : String) : Bool :=
  declared.any fun field => field.ignored && field.name = key

/-- The fields that are left when the ignored ones are dropped. -/
theorem get?_dropIgnored_eq {fields : Fields} (h : (Keyed.keys fields).Nodup)
    (declared : List Field) (key : String) :
    Keyed.get? key (dropIgnored fields declared)
      = if ignores declared key then none else Keyed.get? key fields := by
  induction declared generalizing fields with
  | nil => rfl
  | cons field rest ih =>
    rw [dropIgnored]
    by_cases hignored : field.ignored = true
    · rw [if_pos hignored, ih (Keyed.nodup_swapErase h _), Keyed.get?_swapErase h]
      by_cases hname : field.name = key
      · simp [ignores, hignored, hname]
      · simp [ignores, hname]
    · rw [if_neg hignored, ih h]
      simp [ignores, hignored]

theorem get?_dropIgnored {fields : Fields} (h : (Keyed.keys fields).Nodup)
    {declared : List Field} {key : String}
    (hkey : ∀ field ∈ declared, field.ignored = true → field.name ≠ key) :
    Keyed.get? key (dropIgnored fields declared) = Keyed.get? key fields := by
  have hkept : ¬ignores declared key = true := by
    intro hany
    obtain ⟨field, hfield, hboth⟩ := List.any_eq_true.mp hany
    rw [Bool.and_eq_true, decide_eq_true_eq] at hboth
    exact hkey field hfield hboth.1 hboth.2
  rw [get?_dropIgnored_eq h, if_neg hkept]

/-- A stored field that is not the identity stands in the document as it stands in the entity. -/
theorem field?_ofEntity {m : EntityMeta} {id : Int} {body : Fields} {d : Document}
    (h : ofEntity m id (.obj body) = .ok d) (hbody : (Keyed.keys body).Nodup) {key : String}
    (hid : m.idField ≠ key) (hidKey : idKey ≠ key)
    (hkept : ∀ field ∈ m.fields, field.ignored = true → field.name ≠ key) :
    d.toJson.field? key = Keyed.get? key body := by
  simp only [ofEntity, make, Except.ok.injEq] at h
  subst h
  have hnodup := Keyed.nodup_swapErase hbody m.idField
  rw [toJson, Json.field?, Keyed.get?, if_neg hidKey,
    Keyed.get?_swapErase_of_ne (nodup_dropIgnored hnodup _) hidKey, get?_dropIgnored hnodup hkept,
    Keyed.get?_swapErase_of_ne hbody hid]

/-- The identity of an entity is the identity of its document. -/
theorem field?_idKey_ofEntity {m : EntityMeta} {id : Int} {body : Fields} {d : Document}
    (h : ofEntity m id (.obj body) = .ok d) : d.toJson.field? idKey = some (.int id) := by
  simp only [ofEntity, make, Except.ok.injEq] at h
  subst h
  rw [toJson, Json.field?, Keyed.get?, if_pos rfl]

end DualStore.Document
