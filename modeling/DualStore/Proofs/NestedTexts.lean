import DualStore.Proofs.StoredDocuments

/-!
# Texts that are nested too deeply

A value may be nested more deeply than its text can be read. A reader that is allowed more levels
reads what one with fewer levels reads, and nothing that is read has more levels than were allowed;
so the text of a value is read exactly if the value is not nested too deeply.

* `Json.fitsLevels`: how deeply a value is nested;
* `readValue_induction`: what is true of all values that are read;
* `readValue_of_le`, `fitsLevels_of_readValue`: more levels, and what is read within some levels;
* `Json.IsValue`, `isReadable_of_readRaw?`: values of any depth, and those that are read;
* `Document.WellFormed`: documents of any depth; `storable_of_ofText?`: those that are read.
-/

namespace DualStore

namespace Json

/-- Whether a value is not nested deeper than so many levels. -/
def fitsLevels : Nat → Json → Bool
  | 0, .arr _ => false
  | 0, .obj _ => false
  | levels + 1, .arr items => items.all (fitsLevels levels)
  | levels + 1, .obj fields => fields.all fun field => fitsLevels levels field.2
  | _, _ => true

/-- What can be read within some levels can be read within others if it is not nested deeper. -/
theorem isReadable_of_fitsLevels {levels others : Nat} {v : Json}
    (h : isReadable levels v = true) (hfits : fitsLevels others v = true) :
    isReadable others v = true := by
  induction others generalizing levels v with
  | zero =>
    cases v with
    | arr items => simp [fitsLevels] at hfits
    | obj fields => simp [fitsLevels] at hfits
    | _ => cases levels <;> exact h
  | succ others ih =>
    cases v with
    | arr items =>
      cases levels with
      | zero => simp [isReadable] at h
      | succ levels =>
        rw [isReadable_arr] at h ⊢
        rw [fitsLevels, List.all_eq_true] at hfits
        exact fun v hv => ih (h v hv) (hfits v hv)
    | obj fields =>
      cases levels with
      | zero => simp [isReadable] at h
      | succ levels =>
        rw [isReadable_obj] at h ⊢
        rw [fitsLevels, List.all_eq_true] at hfits
        exact ⟨h.1, fun field hfield => ih (h.2 field hfield) (hfits field hfield)⟩
    | _ => cases levels <;> exact h

theorem fitsLevels_of_isReadable {levels : Nat} {v : Json} (h : isReadable levels v = true) :
    fitsLevels levels v = true := by
  induction levels generalizing v with
  | zero => cases v <;> simp_all [isReadable, fitsLevels]
  | succ levels ih =>
    cases v with
    | arr items =>
      rw [isReadable_arr] at h
      rw [fitsLevels, List.all_eq_true]
      exact fun v hv => ih (h v hv)
    | obj fields =>
      rw [isReadable_obj] at h
      rw [fitsLevels, List.all_eq_true]
      exact fun field hfield => ih (h.2 field hfield)
    | _ => rfl

theorem fitsLevels_of_le {levels more : Nat} (hle : levels ≤ more) {v : Json}
    (h : fitsLevels levels v = true) : fitsLevels more v = true := by
  induction more generalizing levels v with
  | zero =>
    obtain rfl := Nat.le_zero.mp hle
    exact h
  | succ more ih =>
    cases v with
    | arr items =>
      cases levels with
      | zero => simp [fitsLevels] at h
      | succ levels =>
        rw [fitsLevels, List.all_eq_true] at h ⊢
        exact fun v hv => ih (Nat.le_of_succ_le_succ hle) (h v hv)
    | obj fields =>
      cases levels with
      | zero => simp [fitsLevels] at h
      | succ levels =>
        rw [fitsLevels, List.all_eq_true] at h ⊢
        exact fun field hfield => ih (Nat.le_of_succ_le_succ hle) (h field hfield)
    | _ => rfl

/-- A reader that is allowed more levels reads more values. -/
theorem isReadable_of_le {levels more : Nat} (hle : levels ≤ more) {v : Json}
    (h : isReadable levels v = true) : isReadable more v = true :=
  isReadable_of_fitsLevels h (fitsLevels_of_le hle (fitsLevels_of_isReadable h))

/-- Reading the doubles again changes no depth. -/
theorem fitsLevels_reread (levels : Nat) (v : Json) :
    fitsLevels levels v.reread = fitsLevels levels v := by
  induction levels generalizing v with
  | zero => cases v <;> rfl
  | succ levels ih =>
    cases v with
    | arr items =>
      rw [reread, rereadItems_eq_map, fitsLevels, fitsLevels, List.all_map]
      exact List.all_congr rfl fun v => ih v
    | obj fields =>
      rw [reread, rereadFields_eq_map, fitsLevels, fitsLevels, List.all_map]
      exact List.all_congr rfl fun field => ih field.2
    | _ => rfl

/-! ## Readers with more levels -/

/-- Whether a reader reads everything that another one reads, in the same way. -/
def Extends (more fewer : List Char → Option (Json × List Char)) : Prop :=
  ∀ cs read, fewer cs = some read → more cs = some read

section Readers

variable {more fewer : List Char → Option (Json × List Char)}

theorem readItems_extends (h : Extends more fewer) {fuel : Nat} {cs : List Char}
    {read : List Json × List Char} (hread : readItems fewer fuel cs = some read) :
    readItems more fuel cs = some read := by
  induction fuel generalizing cs read with
  | zero => simp [readItems] at hread
  | succ fuel ih =>
    rw [readItems] at hread ⊢
    cases hv : fewer (skip cs) with
    | none => simp [hv] at hread
    | some first =>
      obtain ⟨v, rest⟩ := first
      rw [hv] at hread
      rw [h _ _ hv]
      dsimp only at hread ⊢
      split at hread
      · obtain ⟨others, hothers, rfl⟩ := Option.map_eq_some_iff.mp hread
        rw [ih hothers]
        rfl
      · exact hread
      · cases hread

theorem readFields_extends (h : Extends more fewer) {fuel : Nat} {cs : List Char}
    {read : Fields × List Char} (hread : readFields fewer fuel cs = some read) :
    readFields more fuel cs = some read := by
  induction fuel generalizing cs read with
  | zero => simp [readFields] at hread
  | succ fuel ih =>
    rw [readFields] at hread ⊢
    cases hkey : readKey cs with
    | none => simp [hkey] at hread
    | some named =>
      obtain ⟨key, rest⟩ := named
      rw [hkey] at hread
      dsimp only at hread ⊢
      cases hv : fewer (skip rest) with
      | none => simp [hv] at hread
      | some first =>
        obtain ⟨v, rest⟩ := first
        rw [hv] at hread
        rw [h _ _ hv]
        dsimp only at hread ⊢
        split at hread
        · obtain ⟨others, hothers, rfl⟩ := Option.map_eq_some_iff.mp hread
          rw [ih hothers]
          rfl
        · exact hread
        · cases hread

/-- The items of an array are what the reader of items reads. -/
theorem forall_of_readItems {P : Json → Prop}
    (h : ∀ cs v rest, fewer cs = some (v, rest) → P v) {fuel : Nat} {cs rest : List Char}
    {items : List Json} (hread : readItems fewer fuel cs = some (items, rest)) :
    ∀ v ∈ items, P v := by
  induction fuel generalizing cs rest items with
  | zero => simp [readItems] at hread
  | succ fuel ih =>
    rw [readItems] at hread
    split at hread
    · cases hread
    · next hv =>
      split at hread
      · obtain ⟨⟨others, after⟩, hothers, heq⟩ := Option.map_eq_some_iff.mp hread
        obtain ⟨rfl, rfl⟩ := Prod.mk.inj heq
        exact List.forall_mem_cons.mpr ⟨h _ _ _ hv, ih hothers⟩
      · obtain ⟨rfl, rfl⟩ := Prod.mk.inj (Option.some.inj hread)
        exact List.forall_mem_singleton.mpr (h _ _ _ hv)
      · cases hread

/-- The values of the fields of an object are what the reader of values reads. -/
theorem forall_of_readFields {P : Json → Prop}
    (h : ∀ cs v rest, fewer cs = some (v, rest) → P v) {fuel : Nat} {cs rest : List Char}
    {fields : Fields} (hread : readFields fewer fuel cs = some (fields, rest)) :
    ∀ field ∈ fields, P field.2 := by
  induction fuel generalizing cs rest fields with
  | zero => simp [readFields] at hread
  | succ fuel ih =>
    rw [readFields] at hread
    split at hread
    · cases hread
    · split at hread
      · cases hread
      · next hv =>
        split at hread
        · obtain ⟨⟨others, after⟩, hothers, heq⟩ := Option.map_eq_some_iff.mp hread
          obtain ⟨rfl, rfl⟩ := Prod.mk.inj heq
          exact List.forall_mem_cons.mpr ⟨h _ _ _ hv, ih hothers⟩
        · obtain ⟨rfl, rfl⟩ := Prod.mk.inj (Option.some.inj hread)
          exact List.forall_mem_singleton.mpr (h _ _ _ hv)
        · cases hread

end Readers

/-- The word that is built from digits has no more than 64 bits. -/
theorem absorb_le_wordMax {word : Nat} (h : word ≤ wordMax) (ds : List Char) :
    (absorb word ds).1 ≤ wordMax := by
  induction ds generalizing word with
  | nil => exact h
  | cons d rest ih =>
    rw [absorb]
    split
    · exact h
    · next hfits => exact ih (Nat.not_lt.mp hfits)

/-- Whether a value is neither an array nor an object, and an integer only if it fits into 64 bits
with or without sign. -/
def IsScalar : Json → Prop
  | .int n => -(2 ^ 63) ≤ n ∧ n < 2 ^ 64
  | .arr _ => False
  | .obj _ => False
  | _ => True

theorem isScalar_of_readMagnitude {negative : Bool} {cs rest : List Char} {v : Json}
    (h : readMagnitude negative cs = some (v, rest)) : v.IsScalar := by
  have hword : (absorb 0 (cs.takeWhile Char.isDigit)).1 ≤ wordMax :=
    absorb_le_wordMax (Nat.zero_le _) _
  simp only [readMagnitude] at h
  split at h
  · cases h
  · split at h
    · split at h
      · obtain ⟨rfl, -⟩ := Prod.mk.inj (Option.some.inj h)
        simp only [IsScalar, wordMax] at hword ⊢
        omega
      · split at h
        · obtain ⟨rfl, -⟩ := Prod.mk.inj (Option.some.inj h)
          trivial
        · next hsmall =>
          obtain ⟨rfl, -⟩ := Prod.mk.inj (Option.some.inj h)
          simp only [not_or, Nat.not_lt, Nat.pow_eq] at hsmall
          simp only [IsScalar]
          omega
    · obtain ⟨read, -, heq⟩ := Option.map_eq_some_iff.mp h
      obtain ⟨rfl, -⟩ := Prod.mk.inj heq
      trivial

theorem isScalar_of_readScalar {cs rest : List Char} {v : Json}
    (h : readScalar cs = some (v, rest)) : v.IsScalar := by
  rw [readScalar.eq_def] at h
  split at h
  · obtain ⟨rfl, -⟩ := Prod.mk.inj (Option.some.inj h)
    trivial
  · obtain ⟨rfl, -⟩ := Prod.mk.inj (Option.some.inj h)
    trivial
  · obtain ⟨rfl, -⟩ := Prod.mk.inj (Option.some.inj h)
    trivial
  · obtain ⟨read, -, heq⟩ := Option.map_eq_some_iff.mp h
    obtain ⟨rfl, -⟩ := Prod.mk.inj heq
    trivial
  · rw [readNumber.eq_def] at h
    split at h <;> exact isScalar_of_readMagnitude h

/-- **What is true of all values that a text can spell**: of scalars, and of arrays and objects if
it is true of their parts with one level less. -/
theorem readValue_induction {P : Nat → Json → Prop}
    (scalar : ∀ {levels : Nat} {v : Json}, v.IsScalar → P levels v)
    (arr : ∀ {levels : Nat} {items : List Json}, (∀ v ∈ items, P levels v) →
      P (levels + 1) (.arr items))
    (obj : ∀ {levels : Nat} {fields : Fields}, (∀ field ∈ fields, P levels field.2) →
      P (levels + 1) (.obj fields))
    {levels : Nat} {cs rest : List Char} {v : Json}
    (h : readValue levels cs = some (v, rest)) : P levels v := by
  induction levels generalizing cs rest v with
  | zero => exact scalar (isScalar_of_readScalar h)
  | succ levels ih =>
    -- What is inside brackets is read with one level less.
    have hparts : ∀ cs v rest, readValue levels cs = some (v, rest) → P levels v :=
      fun _ _ _ => ih
    rw [readValue.eq_def] at h
    dsimp only at h
    split at h
    · split at h
      · obtain ⟨rfl, -⟩ := Prod.mk.inj (Option.some.inj h)
        exact arr (by simp)
      · obtain ⟨⟨items, after⟩, hitems, heq⟩ := Option.map_eq_some_iff.mp h
        obtain ⟨rfl, -⟩ := Prod.mk.inj heq
        exact arr (forall_of_readItems hparts hitems)
    · split at h
      · obtain ⟨rfl, -⟩ := Prod.mk.inj (Option.some.inj h)
        exact obj (by simp)
      · obtain ⟨⟨fields, after⟩, hfields, heq⟩ := Option.map_eq_some_iff.mp h
        obtain ⟨rfl, -⟩ := Prod.mk.inj heq
        exact obj (forall_of_readFields hparts hfields)
    · exact scalar (isScalar_of_readScalar h)

/-- **Nothing that is read has more levels than the reader was allowed.** -/
theorem fitsLevels_of_readValue {levels : Nat} {cs rest : List Char} {v : Json}
    (h : readValue levels cs = some (v, rest)) : fitsLevels levels v = true := by
  refine readValue_induction (P := fun levels v => fitsLevels levels v = true) ?_ ?_ ?_ h
  · intro levels v hv
    cases v with
    | arr _ | obj _ => exact absurd hv id
    | _ => cases levels <;> rfl
  · exact fun hitems => List.all_eq_true.mpr hitems
  · exact fun hfields => List.all_eq_true.mpr hfields

/-- One more level leaves what is read as it is. -/
theorem readValue_extends (levels : Nat) : Extends (readValue (levels + 1)) (readValue levels) := by
  induction levels with
  | zero =>
    intro cs read h
    rw [readValue] at h
    rw [readValue.eq_def]
    dsimp only
    -- Without levels nothing that opens with a bracket is read.
    split
    · exact absurd h (by simp [readScalar, readNumber, readMagnitude])
    · exact absurd h (by simp [readScalar, readNumber, readMagnitude])
    · exact h
  | succ levels ih =>
    intro cs read h
    rw [readValue.eq_def] at h ⊢
    dsimp only at h ⊢
    split at h
    · split at h
      · exact h
      · obtain ⟨items, hitems, rfl⟩ := Option.map_eq_some_iff.mp h
        rw [readItems_extends ih hitems]
        rfl
    · split at h
      · exact h
      · obtain ⟨fields, hfields, rfl⟩ := Option.map_eq_some_iff.mp h
        rw [readFields_extends ih hfields]
        rfl
    · exact h

/-- **A reader that is allowed more levels reads what one with fewer levels reads.** -/
theorem readValue_of_le {levels more : Nat} (hle : levels ≤ more) {cs : List Char}
    {read : Json × List Char} (h : readValue levels cs = some read) :
    readValue more cs = some read := by
  induction hle with
  | refl => exact h
  | step _ ih => exact readValue_extends _ _ _ ih

/-! ## Values of any depth -/

/-- Whether the text of a value can be read within enough levels: its doubles are finite, its
integers fit into 64 bits with or without sign, and its objects have each key once. -/
def IsValue (v : Json) : Prop := ∃ levels, isReadable levels v = true

/-- The values of finitely many fields can be read within the same number of levels. -/
theorem exists_levels {fields : Fields} (h : ∀ field ∈ fields, field.2.IsValue) :
    ∃ levels, ∀ field ∈ fields, isReadable levels field.2 = true := by
  induction fields with
  | nil => exact ⟨0, by simp⟩
  | cons field rest ih =>
    obtain ⟨⟨levels, hlevels⟩, hrest⟩ := List.forall_mem_cons.mp h
    obtain ⟨others, hothers⟩ := ih hrest
    refine ⟨max levels others, List.forall_mem_cons.mpr ⟨?_, fun other hother => ?_⟩⟩
    · exact isReadable_of_le (Nat.le_max_left levels others) hlevels
    · exact isReadable_of_le (Nat.le_max_right levels others) (hothers other hother)

/-- **A value whose indented text is read is not nested too deeply.** With enough levels the text is
read as the value, and so it is with the levels that there are. -/
theorem isReadable_of_readRaw? {v read : Json} (h : v.IsValue)
    (hread : readRaw? v.prettyText = some read) : isReadable maxLevels v = true := by
  obtain ⟨levels, hlevels⟩ := h
  have henough := isReadable_of_le (Nat.le_max_left levels maxLevels) hlevels
  have hindented := reads_indented henough 0
  have hwhole := hindented.reads [] endsNumber_nil
  have hskip := skip_of_starts hindented.starts []
  rw [List.append_nil] at hwhole hskip
  rw [readRaw?, prettyText, String.toList_ofList, hskip] at hread
  split at hread
  · next value rest hvalue =>
    have hsame := readValue_of_le (Nat.le_max_right levels maxLevels) hvalue
    rw [hwhole] at hsame
    obtain ⟨rfl, -⟩ := Prod.mk.inj (Option.some.inj hsame)
    have hfits := fitsLevels_of_readValue hvalue
    rw [fitsLevels_reread] at hfits
    exact isReadable_of_fitsLevels henough hfits
  · cases hread

end Json

namespace Document

/-- Whether a document is one that a program can hold, whose fields have values of any depth. -/
def WellFormed (d : Document) : Prop := d.HasValues Json.IsValue

variable {d : Document}

theorem Storable.wellFormed (h : d.Storable) : d.WellFormed :=
  ⟨h.fits, h.nodup, h.notIdKey, fun field hfield => ⟨_, h.readable field hfield⟩⟩

theorem WellFormed.isValue_toJson (h : d.WellFormed) : d.toJson.IsValue := by
  obtain ⟨levels, hlevels⟩ := Json.exists_levels h.values
  have hid : Json.isReadable levels (.int d.id) = true := by
    have hfits := h.fits
    rw [Decimal.fitsInt64_iff, Decimal.int64Min, Decimal.int64Max] at hfits
    cases levels <;>
      simp only [Json.isReadable, Bool.and_eq_true, decide_eq_true_eq] <;> omega
  refine ⟨levels + 1, Json.isReadable_obj.mpr ⟨List.nodup_cons.mpr ⟨h.notIdKey, h.nodup⟩, ?_⟩⟩
  exact List.forall_mem_cons.mpr ⟨hid, hlevels⟩

/-- **A document whose text is read is not nested too deeply, and it is read with its doubles read
again.** -/
theorem storable_of_ofText? (h : d.WellFormed) {read : Document}
    (hread : ofText? d.toText = some read) : d.Storable ∧ read = d.reread := by
  have hraw : ∃ raw, Json.readRaw? d.toJson.prettyText = some raw := by
    rw [ofText?, toText] at hread
    cases hraw : Json.readRaw? d.toJson.prettyText with
    | none => simp [hraw] at hread
    | some raw => exact ⟨raw, rfl⟩
  obtain ⟨raw, hraw⟩ := hraw
  have hreadable : Json.isReadable (fieldLevels + 1) d.toJson = true :=
    Json.isReadable_of_readRaw? h.isValue_toJson hraw
  have hfields := (Json.isReadable_obj.mp hreadable).2
  have hstorable : d.Storable :=
    ⟨h.fits, h.nodup, h.notIdKey, (List.forall_mem_cons.mp hfields).2⟩
  rw [ofText?_toText hstorable] at hread
  exact ⟨hstorable, (Option.some.inj hread).symm⟩

end Document

end DualStore
