import DualStore.Proofs.DoubleOrder
import DualStore.Proofs.NestedTexts

/-!
# Equal values

Values are equal up to the order of the fields of their objects and up to the sign of a zero. For
values as a program can hold them that is an equivalence, and equal values are nested as deeply.

* `IsValue.items`, `IsValue.nodup`, `IsValue.fields`, `IsValue.field?`: the parts of a value;
* `IsValue.int_range`, `IsValue.value?_float`: the numbers that a value can be;
* `sameItems_iff`, `sameFields_iff`: equal arrays and equal objects, part by part;
* `same_refl`, `same_symm`, `same_trans`: equality is an equivalence;
* `fitsLevels_of_same`, `exists_levels_within`: depth, and an object beside what its fields hold.
-/

namespace DualStore.Json

open Decimal

/-! ## Parts of values -/

theorem IsValue.items {items : List Json} (h : (arr items).IsValue) : ∀ v ∈ items, v.IsValue := by
  obtain ⟨levels, hlevels⟩ := h
  cases levels with
  | zero => simp [isReadable] at hlevels
  | succ levels => exact fun v hv => ⟨levels, isReadable_arr.mp hlevels v hv⟩

theorem IsValue.nodup {fields : Fields} (h : (obj fields).IsValue) :
    (Keyed.keys fields).Nodup := by
  obtain ⟨levels, hlevels⟩ := h
  cases levels with
  | zero => simp [isReadable] at hlevels
  | succ levels => exact (isReadable_obj.mp hlevels).1

theorem IsValue.fields {fields : Fields} (h : (obj fields).IsValue) :
    ∀ field ∈ fields, field.2.IsValue := by
  obtain ⟨levels, hlevels⟩ := h
  cases levels with
  | zero => simp [isReadable] at hlevels
  | succ levels => exact fun field hfield => ⟨levels, (isReadable_obj.mp hlevels).2 field hfield⟩

theorem IsValue.field? {v w : Json} {key : String} (h : v.IsValue) (hw : v.field? key = some w) :
    w.IsValue := by
  cases v with
  | obj fields => exact h.fields _ (Keyed.mem_of_get? hw)
  | _ => cases hw

theorem IsValue.int_range {n : Int} (h : (int n).IsValue) : -2 ^ 63 ≤ n ∧ n < 2 ^ 64 := by
  obtain ⟨levels, h⟩ := h
  cases levels <;> simpa [isReadable] using h

theorem IsValue.value?_float {x : Float} (h : (float x).IsValue) : ∃ p, value? x = some p := by
  obtain ⟨levels, hlevels⟩ := h
  apply (isFinite_iff_value? x).mp
  cases levels <;> exact hlevels

/-! ## Equality part by part -/

theorem sameItems_iff (xs ys : List Json) :
    sameItems xs ys = true ↔ List.Forall₂ (fun x y => same x y = true) xs ys := by
  induction xs generalizing ys with
  | nil => cases ys <;> simp [sameItems]
  | cons x xs ih =>
    cases ys with
    | nil => simp [sameItems]
    | cons y ys => rw [sameItems, Bool.and_eq_true, ih, List.forall₂_cons]

theorem sameFields_iff (fs gs : Fields) :
    sameFields fs gs = true ↔
      ∀ field ∈ fs, ∃ other, Keyed.get? field.1 gs = some other ∧ same field.2 other = true := by
  induction fs with
  | nil => simp [sameFields]
  | cons field rest ih =>
    obtain ⟨key, value⟩ := field
    rw [sameFields, Bool.and_eq_true, ih, List.forall_mem_cons]
    cases Keyed.get? key gs <;> simp

theorem same_obj_iff (fs gs : Fields) :
    same (.obj fs) (.obj gs) = true ↔ fs.length = gs.length ∧
      ∀ field ∈ fs, ∃ other, Keyed.get? field.1 gs = some other ∧ same field.2 other = true := by
  rw [same, Bool.and_eq_true, beq_iff_eq, sameFields_iff]

/-! ## Equality is an equivalence -/

theorem same_refl {v : Json} (h : v.IsValue) : same v v = true := by
  obtain ⟨levels, h⟩ := h
  refine readable_induction (P := fun v => same v v = true) ?_ ?_ ?_ h
  · intro levels v h harr hobj
    cases v with
    | float x =>
      obtain ⟨p, hp⟩ := IsValue.value?_float ⟨levels, h⟩
      rw [same]
      exact (beq_iff hp hp).mpr rfl
    | arr items => exact absurd rfl (harr items)
    | obj fields => exact absurd rfl (hobj fields)
    | _ => simp [same]
  · intro items ih
    rw [same, sameItems_iff]
    exact List.forall₂_same.mpr ih
  · intro fields hkeys ih
    rw [same_obj_iff]
    exact ⟨rfl, fun field hfield =>
      ⟨field.2, (Keyed.get?_eq_some_iff hkeys _ _).mpr hfield, ih field hfield⟩⟩

/-- An object with as many fields as another, each of which the other has too, has all fields of the
other. -/
theorem exists_field_of_same {fs gs : Fields} (hfs : (Keyed.keys fs).Nodup)
    (hgs : (Keyed.keys gs).Nodup) (h : same (.obj fs) (.obj gs) = true) {field : String × Json}
    (hfield : field ∈ gs) :
    ∃ value, (field.1, value) ∈ fs ∧ same value field.2 = true := by
  obtain ⟨hlength, hall⟩ := (same_obj_iff fs gs).mp h
  have hsubset : Keyed.keys fs ⊆ Keyed.keys gs := by
    intro key hkey
    obtain ⟨entry, hentry, rfl⟩ := List.mem_map.mp hkey
    obtain ⟨other, hother, -⟩ := hall entry hentry
    exact List.mem_map.mpr ⟨_, Keyed.mem_of_get? hother, rfl⟩
  have hperm : (Keyed.keys fs).Perm (Keyed.keys gs) := by
    refine (List.subperm_of_subset hfs hsubset).perm_of_length_le ?_
    rw [Keyed.keys, Keyed.keys, List.length_map, List.length_map, hlength]
  obtain ⟨entry, hentry, hkey⟩ := List.mem_map.mp (hperm.mem_iff.mpr (Keyed.mem_keys hfield))
  obtain ⟨other, hother, hsame⟩ := hall entry hentry
  rw [hkey, (Keyed.get?_eq_some_iff hgs _ _).mpr hfield, Option.some.injEq] at hother
  subst hother
  exact ⟨entry.2, hkey ▸ hentry, hsame⟩

theorem same_symm {v w : Json} (hv : v.IsValue) (hw : w.IsValue) (h : same v w = true) :
    same w v = true := by
  obtain ⟨levels, hlevels⟩ := hv
  refine readable_induction (P := fun v => ∀ w : Json, w.IsValue → same v w = true →
    same w v = true) ?_ ?_ ?_ hlevels w hw h
  · intro levels v hv harr hobj w hw h
    cases v with
    | float x =>
      cases w with
      | float y =>
        obtain ⟨p, hp⟩ := IsValue.value?_float ⟨levels, hv⟩
        obtain ⟨q, hq⟩ := hw.value?_float
        rw [same] at h ⊢
        exact (beq_iff hq hp).mpr ((beq_iff hp hq).mp h).symm
      | _ => simp [same] at h
    | arr items => exact absurd rfl (harr items)
    | obj fields => exact absurd rfl (hobj fields)
    | _ => cases w <;> simp_all [same]
  · intro xs ih w hw h
    cases w with
    | arr ys =>
      have hys := hw.items
      clear hw
      rw [same, sameItems_iff] at h ⊢
      induction h with
      | nil => exact .nil
      | cons hxy _ hrest =>
        obtain ⟨hx, hxs⟩ := List.forall_mem_cons.mp ih
        obtain ⟨hy, hys⟩ := List.forall_mem_cons.mp hys
        exact .cons (hx _ hy hxy) (hrest hxs hys)
    | _ => simp [same] at h
  · intro fs hfs ih w hw h
    cases w with
    | obj gs =>
      rw [same_obj_iff]
      refine ⟨((same_obj_iff fs gs).mp h).1.symm, fun field hfield => ?_⟩
      obtain ⟨value, hvalue, hsame⟩ := exists_field_of_same hfs hw.nodup h hfield
      exact ⟨value, (Keyed.get?_eq_some_iff hfs _ _).mpr hvalue,
        ih _ hvalue _ (hw.fields field hfield) hsame⟩
    | _ => simp [same] at h

theorem same_trans {v w x : Json} (hv : v.IsValue) (hw : w.IsValue) (hx : x.IsValue)
    (h : same v w = true) (h' : same w x = true) : same v x = true := by
  obtain ⟨levels, hlevels⟩ := hv
  refine readable_induction (P := fun v => ∀ w x : Json, w.IsValue → x.IsValue →
    same v w = true → same w x = true → same v x = true) ?_ ?_ ?_ hlevels w x hw hx h h'
  · intro levels v hv harr hobj w x hw hx h h'
    cases v with
    | float a =>
      cases w with
      | float b =>
        cases x with
        | float c =>
          obtain ⟨p, hp⟩ := IsValue.value?_float ⟨levels, hv⟩
          obtain ⟨q, hq⟩ := hw.value?_float
          obtain ⟨r, hr⟩ := hx.value?_float
          rw [same] at h h' ⊢
          exact (beq_iff hp hr).mpr (((beq_iff hp hq).mp h).trans ((beq_iff hq hr).mp h'))
        | _ => simp [same] at h'
      | _ => simp [same] at h
    | arr items => exact absurd rfl (harr items)
    | obj fields => exact absurd rfl (hobj fields)
    | _ => cases w <;> cases x <;> simp_all [same]
  · intro xs ih w x hw hx h h'
    cases w with
    | arr ys =>
      cases x with
      | arr zs =>
        have hys := hw.items
        have hzs := hx.items
        clear hw hx
        rw [same, sameItems_iff] at h h' ⊢
        induction h generalizing zs with
        | nil => exact h'
        | cons hxy _ hrest =>
          obtain ⟨hx, hxs⟩ := List.forall_mem_cons.mp ih
          obtain ⟨hy, hys⟩ := List.forall_mem_cons.mp hys
          cases h' with
          | cons hyz hyzs =>
            obtain ⟨hz, hzs⟩ := List.forall_mem_cons.mp hzs
            exact .cons (hx _ _ hy hz hxy hyz) (hrest hxs _ hyzs hys hzs)
      | _ => simp [same] at h'
    | _ => simp [same] at h
  · intro fs hfs ih w x hw hx h h'
    cases w with
    | obj gs =>
      cases x with
      | obj ks =>
        rw [same_obj_iff] at h h' ⊢
        refine ⟨h.1.trans h'.1, fun field hfield => ?_⟩
        obtain ⟨other, hother, hsame⟩ := h.2 field hfield
        have hmem := Keyed.mem_of_get? hother
        obtain ⟨third, hthird, hsame'⟩ := h'.2 _ hmem
        have hvalue := hx.fields _ (Keyed.mem_of_get? hthird)
        exact ⟨third, hthird, ih field hfield other third (hw.fields _ hmem) hvalue hsame hsame'⟩
      | _ => simp [same] at h'
    | _ => simp [same] at h

/-! ## Depth -/

/-- Equal values are nested as deeply. -/
theorem fitsLevels_of_same {levels : Nat} {v w : Json} (h : same v w = true)
    (hw : fitsLevels levels w = true) : fitsLevels levels v = true := by
  induction levels generalizing v w with
  | zero => cases v <;> cases w <;> simp_all [same, fitsLevels]
  | succ levels ih =>
    cases v with
    | arr xs =>
      cases w with
      | arr ys =>
        rw [same, sameItems_iff] at h
        rw [fitsLevels, List.all_eq_true] at hw ⊢
        induction h with
        | nil => simp
        | cons hxy _ hrest =>
          rw [List.forall_mem_cons] at hw ⊢
          exact ⟨ih hxy hw.1, hrest hw.2⟩
      | _ => simp [same] at h
    | obj fs =>
      cases w with
      | obj gs =>
        rw [same_obj_iff] at h
        rw [fitsLevels, List.all_eq_true] at hw ⊢
        intro field hfield
        obtain ⟨other, hother, hsame⟩ := h.2 field hfield
        exact ih hsame (hw _ (Keyed.mem_of_get? hother))
      | _ => simp [same] at h
    | _ => rfl

/-- What an object holds is nested less deeply than the object, so that nothing nested no deeper
equals the object. -/
theorem exists_levels_within {fields : Fields} (h : (obj fields).IsValue) :
    ∃ levels, (∀ field ∈ fields, fitsLevels levels field.2 = true) ∧
      ∀ w, fitsLevels levels w = true → same (.obj fields) w = false := by
  have hfits : ∃ levels, fitsLevels levels (obj fields) = true := by
    obtain ⟨levels, hlevels⟩ := h
    exact ⟨levels, fitsLevels_of_isReadable hlevels⟩
  have hleast := Nat.find_spec hfits
  cases hlevels : Nat.find hfits with
  | zero =>
    rw [hlevels] at hleast
    simp [fitsLevels] at hleast
  | succ levels =>
    rw [hlevels, fitsLevels, List.all_eq_true] at hleast
    refine ⟨levels, hleast, fun w hw => Bool.eq_false_iff.mpr fun hsame => ?_⟩
    exact Nat.find_min hfits (by omega) (fitsLevels_of_same hsame hw)

theorem fitsLevels_item {levels : Nat} {items : List Json} {v : Json}
    (h : fitsLevels levels (arr items) = true) (hv : v ∈ items) : fitsLevels levels v = true := by
  cases levels with
  | zero => simp [fitsLevels] at h
  | succ levels =>
    rw [fitsLevels, List.all_eq_true] at h
    exact fitsLevels_of_le (Nat.le_succ levels) (h v hv)

end DualStore.Json
