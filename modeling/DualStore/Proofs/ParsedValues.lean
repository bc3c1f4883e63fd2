import DualStore.Proofs.NestedTexts

/-!
# Values read from any text

However a text spells a value, with blanks, with keys written several times, or with escapes that
are not needed, the value that is read from it has a text of its own that gives it back, unless
there is a double in it.

* `isDoubleFree`: the values without doubles;
* `isSpelled`: the values that a text of so many levels can spell, before keys are merged;
* `isSpelled_of_readValue`, `isExact_merged`: what is read, and what is left of it when the keys are
  merged;
* `isExact_of_parse?`: whole texts.
-/

namespace DualStore.Json

mutual

/-- Whether there is no double in a value. -/
def isDoubleFree : Json → Bool
  | .float _ => false
  | .arr items => itemsDoubleFree items
  | .obj fields => fieldsDoubleFree fields
  | _ => true

/-- Whether there is no double in the items of an array. -/
def itemsDoubleFree : List Json → Bool
  | [] => true
  | value :: rest => isDoubleFree value && itemsDoubleFree rest

/-- Whether there is no double in the fields of an object. -/
def fieldsDoubleFree : List (String × Json) → Bool
  | [] => true
  | (_, value) :: rest => isDoubleFree value && fieldsDoubleFree rest

end

theorem itemsDoubleFree_iff {items : List Json} :
    itemsDoubleFree items = true ↔ ∀ v ∈ items, isDoubleFree v = true := by
  induction items with
  | nil => simp [itemsDoubleFree]
  | cons v rest ih => simp [itemsDoubleFree, ih]

theorem fieldsDoubleFree_iff {fields : Fields} :
    fieldsDoubleFree fields = true ↔ ∀ field ∈ fields, isDoubleFree field.2 = true := by
  induction fields with
  | nil => simp [fieldsDoubleFree]
  | cons field rest ih => simp [fieldsDoubleFree, ih]

/-- Whether a text of so many levels can spell a value: its integers fit into 64 bits with or
without sign. An object may have a key several times. -/
def isSpelled : Nat → Json → Bool
  | _, .int n => decide (-(2 ^ 63) ≤ n) && decide (n < 2 ^ 64)
  | 0, .arr _ => false
  | 0, .obj _ => false
  | levels + 1, .arr items => items.all (isSpelled levels)
  | levels + 1, .obj fields => fields.all fun field => isSpelled levels field.2
  | _, _ => true

theorem isSpelled_of_readValue {levels : Nat} {cs rest : List Char} {v : Json}
    (h : readValue levels cs = some (v, rest)) : isSpelled levels v = true := by
  refine readValue_induction (P := fun levels v => isSpelled levels v = true) ?_ ?_ ?_ h
  · intro levels v hv
    cases v with
    | arr _ | obj _ => exact absurd hv id
    | int n =>
      obtain ⟨hlow, hhigh⟩ : -(2 ^ 63) ≤ n ∧ n < 2 ^ 64 := hv
      cases levels <;> simp only [isSpelled, hlow, hhigh, decide_true, Bool.and_self]
    | _ => cases levels <;> rfl
  · exact fun hitems => List.all_eq_true.mpr hitems
  · exact fun hfields => List.all_eq_true.mpr hfields

/-! ## Merged keys -/

theorem mergedItems_eq_map (items : List Json) : mergedItems items = items.map merged := by
  induction items with
  | nil => rfl
  | cons v items ih => rw [mergedItems, ih, List.map_cons]

theorem mergedFields_eq_map (fields : Fields) :
    mergedFields fields = fields.map fun field => (field.1, merged field.2) := by
  induction fields with
  | nil => rfl
  | cons field fields ih =>
    obtain ⟨key, v⟩ := field
    rw [mergedFields, ih, List.map_cons]

/-- What a text spells gives the same text back when its keys are merged, unless there is a double
left in it. -/
theorem isExact_merged {levels : Nat} {v : Json} (h : isSpelled levels v = true)
    (hfree : isDoubleFree (merged v) = true) : isExact levels (merged v) = true := by
  induction levels generalizing v with
  | zero => cases v <;> simp_all [isSpelled, isDoubleFree, merged, isExact]
  | succ levels ih =>
    cases v with
    | arr items =>
      rw [isSpelled, List.all_eq_true] at h
      rw [merged, isDoubleFree, itemsDoubleFree_iff, mergedItems_eq_map,
        List.forall_mem_map] at hfree
      rw [merged, isExact, List.all_eq_true, mergedItems_eq_map, List.forall_mem_map]
      exact fun v hv => ih (h v hv) (hfree v hv)
    | obj fields =>
      rw [isSpelled, List.all_eq_true] at h
      rw [merged, isDoubleFree, fieldsDoubleFree_iff] at hfree
      rw [merged, isExact, Bool.and_eq_true, decide_eq_true_eq, List.all_eq_true]
      refine ⟨Keyed.nodup_merged _, fun field hfield => ?_⟩
      have hwritten := Keyed.mem_of_mem_merged hfield
      rw [mergedFields_eq_map] at hwritten
      obtain ⟨spelled, hspelled, rfl⟩ := List.mem_map.mp hwritten
      exact ih (h spelled hspelled) (hfree _ hfield)
    | float x => simp [merged, isDoubleFree] at hfree
    | _ => exact h

/-! ## Whole texts -/

/-- **A value that is read from a text has a text that gives it back**, unless there is a double in
it. -/
theorem isExact_of_parse? {text : String} {v : Json} (h : parse? text = some v)
    (hfree : v.isDoubleFree = true) : isExact maxLevels v = true := by
  obtain ⟨raw, hraw, rfl⟩ := Option.map_eq_some_iff.mp h
  rw [readRaw?] at hraw
  split at hraw
  · next value rest hvalue =>
    split at hraw
    · obtain rfl := Option.some.inj hraw
      exact isExact_merged (isSpelled_of_readValue hvalue) hfree
    · cases hraw
  · cases hraw

end DualStore.Json
