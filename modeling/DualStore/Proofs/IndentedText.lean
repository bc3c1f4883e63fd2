import Mathlib.Data.List.DropRight
import DualStore.Proofs.DoubleTexts
import DualStore.Proofs.JsonText

/-!
# Indented texts written and read

The indented text of a value is read as the value, but for its doubles: each is read again as its
own text is.

* `isReadable`: the values whose texts can be read, within so many levels; `readable_induction`;
* `reread`: a value with every double read again; `reread_of_isExact` says when it stays the same;
* `ReadsIndented`: a reader that reads the indented text of a value wherever a number may end;
* `readItems_indented`, `readFields_indented`: arrays and objects, given readers of their parts;
* `reads_indented`, `readRaw?_prettyText`: values level by level, and whole texts;
* `merged_of_isReadable`: no key of such a value is there twice.
-/

namespace DualStore.Json

open Decimal

/-- Whether the text of a value can be read: its doubles are finite, its integers fit into 64 bits
with or without sign, its objects have each key once, and it is not nested deeper than so many
levels. -/
def isReadable : Nat → Json → Bool
  | _, .null => true
  | _, .bool _ => true
  | _, .int n => decide (-(2 ^ 63) ≤ n) && decide (n < 2 ^ 64)
  | _, .float x => isFinite x
  | _, .str _ => true
  | 0, .arr _ => false
  | 0, .obj _ => false
  | levels + 1, .arr items => items.all (isReadable levels)
  | levels + 1, .obj fields =>
    decide (Keyed.keys fields).Nodup && fields.all fun field => isReadable levels field.2

mutual

/-- A value as its text is read: every double is read again. -/
def reread : Json → Json
  | .float x => .float (rereadDouble x)
  | .arr items => .arr (rereadItems items)
  | .obj fields => .obj (rereadFields fields)
  | value => value

/-- The items of an array, each read again. -/
def rereadItems : List Json → List Json
  | [] => []
  | value :: rest => reread value :: rereadItems rest

/-- The fields of an object, the value of each read again. -/
def rereadFields : List (String × Json) → List (String × Json)
  | [] => []
  | (key, value) :: rest => (key, reread value) :: rereadFields rest

end

theorem rereadItems_eq_map (items : List Json) : rereadItems items = items.map reread := by
  induction items with
  | nil => rfl
  | cons v items ih => rw [rereadItems, ih, List.map_cons]

theorem rereadFields_eq_map (fields : Fields) :
    rereadFields fields = fields.map fun field => (field.1, reread field.2) := by
  induction fields with
  | nil => rfl
  | cons field fields ih =>
    obtain ⟨key, v⟩ := field
    rw [rereadFields, ih, List.map_cons]

theorem keys_rereadFields (fields : Fields) :
    Keyed.keys (rereadFields fields) = Keyed.keys fields := by
  rw [rereadFields_eq_map, Keyed.keys, List.map_map]
  rfl

theorem isReadable_arr {levels : Nat} {items : List Json} :
    isReadable (levels + 1) (.arr items) = true ↔ ∀ v ∈ items, isReadable levels v = true := by
  rw [isReadable, List.all_eq_true]

theorem isReadable_obj {levels : Nat} {fields : Fields} :
    isReadable (levels + 1) (.obj fields) = true ↔
      (Keyed.keys fields).Nodup ∧ ∀ field ∈ fields, isReadable levels field.2 = true := by
  rw [isReadable, Bool.and_eq_true, decide_eq_true_eq, List.all_eq_true]

/-- Induction on the values whose text can be read. -/
theorem readable_induction {P : Json → Prop}
    (scalar : ∀ {levels : Nat} {v : Json}, isReadable levels v = true → (∀ items, v ≠ .arr items) →
      (∀ fields, v ≠ .obj fields) → P v)
    (arr : ∀ items : List Json, (∀ v ∈ items, P v) → P (.arr items))
    (obj : ∀ fields : Fields, (Keyed.keys fields).Nodup → (∀ field ∈ fields, P field.2) →
      P (.obj fields)) {levels : Nat} {v : Json} (h : isReadable levels v = true) : P v := by
  induction levels generalizing v with
  | zero =>
    refine scalar h ?_ ?_
    · rintro items rfl
      simp [isReadable] at h
    · rintro fields rfl
      simp [isReadable] at h
  | succ levels ih =>
    by_cases harr : ∃ items, v = .arr items
    · obtain ⟨items, rfl⟩ := harr
      exact arr items fun w hw => ih (isReadable_arr.mp h w hw)
    · by_cases hobj : ∃ fields, v = .obj fields
      · obtain ⟨fields, rfl⟩ := hobj
        obtain ⟨hkeys, hvalues⟩ := isReadable_obj.mp h
        exact obj fields hkeys fun field hfield => ih (hvalues field hfield)
      · exact scalar h (fun items hi => harr ⟨items, hi⟩) fun fields hf => hobj ⟨fields, hf⟩

/-- A value that is read again can be read once more. -/
theorem isReadable_reread {levels : Nat} {v : Json} (h : isReadable levels v = true) :
    isReadable levels v.reread = true := by
  induction levels generalizing v with
  | zero =>
    cases v with
    | float x => exact isFinite_rereadDouble h
    | arr items => simp [isReadable] at h
    | obj fields => simp [isReadable] at h
    | _ => exact h
  | succ levels ih =>
    cases v with
    | float x => exact isFinite_rereadDouble h
    | arr items =>
      rw [isReadable_arr] at h
      rw [reread, isReadable_arr, rereadItems_eq_map]
      intro w hw
      obtain ⟨v, hv, rfl⟩ := List.mem_map.mp hw
      exact ih (h v hv)
    | obj fields =>
      rw [isReadable_obj] at h
      rw [reread, isReadable_obj, keys_rereadFields, rereadFields_eq_map]
      refine ⟨h.1, fun read hread => ?_⟩
      obtain ⟨field, hfield, rfl⟩ := List.mem_map.mp hread
      exact ih (h.2 field hfield)
    | _ => exact h

/-- The text of a value that gives it back can be read. -/
theorem isReadable_of_isExact {levels : Nat} {v : Json} (h : isExact levels v = true) :
    isReadable levels v = true := by
  induction levels generalizing v with
  | zero => cases v <;> simp_all [isExact, isReadable]
  | succ levels ih =>
    cases v with
    | float x => simp [isExact] at h
    | arr items =>
      rw [isExact, List.all_eq_true] at h
      exact isReadable_arr.mpr fun v hv => ih (h v hv)
    | obj fields =>
      rw [isExact, Bool.and_eq_true, decide_eq_true_eq, List.all_eq_true] at h
      exact isReadable_obj.mpr ⟨h.1, fun field hfield => ih (h.2 field hfield)⟩
    | _ => exact h

/-- A value without doubles is read as it is. -/
theorem reread_of_isExact {levels : Nat} {v : Json} (h : isExact levels v = true) :
    v.reread = v := by
  induction levels generalizing v with
  | zero => cases v <;> simp [isExact] at h <;> rfl
  | succ levels ih =>
    cases v with
    | float x => simp [isExact] at h
    | arr items =>
      rw [isExact, List.all_eq_true] at h
      rw [reread, rereadItems_eq_map, List.map_congr_left fun v hv => ih (h v hv), List.map_id']
    | obj fields =>
      rw [isExact, Bool.and_eq_true, List.all_eq_true] at h
      have hsame : ∀ field ∈ fields, (field.1, reread field.2) = field := by
        intro field hfield
        rw [ih (h.2 field hfield)]
      rw [reread, rereadFields_eq_map, List.map_congr_left hsame, List.map_id']
    | _ => rfl

/-! ## Blanks -/

theorem skip_newLine (level : Nat) (cs : List Char) : skip (newLine level ++ cs) = skip cs := by
  have hall : ∀ c ∈ newLine level, isSpace c = true := by
    intro c hc
    rcases List.mem_cons.mp hc with rfl | hc
    · rfl
    · rw [List.eq_of_mem_replicate hc]
      rfl
  exact List.dropWhile_append_of_pos hall

theorem skip_skip (cs : List Char) : skip (skip cs) = skip cs :=
  List.dropWhile_idempotent isSpace cs

theorem skip_of_starts {cs : List Char} (h : Starts cs) (rest : List Char) :
    skip (cs ++ rest) = cs ++ rest := by
  obtain ⟨c, cs, rfl, hspace, _⟩ := h
  exact skip_cons hspace _

theorem skip_newLine_starts {cs : List Char} (h : Starts cs) (level : Nat) (rest : List Char) :
    skip (newLine level ++ (cs ++ rest)) = cs ++ rest := by
  rw [skip_newLine, skip_of_starts h]

theorem skip_blank_starts {cs : List Char} (h : Starts cs) (rest : List Char) :
    skip (' ' :: (cs ++ rest)) = cs ++ rest := by
  have hblank : skip (' ' :: (cs ++ rest)) = skip (cs ++ rest) := rfl
  rw [hblank, skip_of_starts h]

theorem starts_stringChars (s : String) : Starts (stringChars s) :=
  ⟨_, _, rfl, rfl, by decide, by decide⟩

theorem endsNumber_restItemsIndented (level : Nat) (items : List Json) (rest : List Char) :
    EndsNumber (restItemsIndented level items ++ rest) := by
  cases items <;> exact ⟨Text.stopsAt_cons rfl _, rfl⟩

theorem endsNumber_restFieldsIndented (level : Nat) (fields : Fields) (rest : List Char) :
    EndsNumber (restFieldsIndented level fields ++ rest) := by
  cases fields with
  | nil => exact ⟨Text.stopsAt_cons rfl _, rfl⟩
  | cons field fields =>
    obtain ⟨key, v⟩ := field
    exact ⟨Text.stopsAt_cons rfl _, rfl⟩

theorem length_lt_restItemsIndented (level : Nat) (items : List Json) :
    items.length < (restItemsIndented level items).length := by
  induction items with
  | nil => simp [restItemsIndented]
  | cons v items ih =>
    simp only [restItemsIndented, List.cons_append, List.length_cons, List.length_append]
    omega

theorem length_lt_restFieldsIndented (level : Nat) (fields : Fields) :
    fields.length < (restFieldsIndented level fields).length := by
  induction fields with
  | nil => simp [restFieldsIndented]
  | cons field fields ih =>
    obtain ⟨key, v⟩ := field
    simp only [restFieldsIndented, List.cons_append, List.length_cons, List.length_append]
    omega

/-! ## Parts -/

/-- The reader reads the value from its indented text wherever a number may end behind it. -/
structure ReadsIndented (reader : List Char → Option (Json × List Char)) (level : Nat)
    (v : Json) : Prop where
  starts : Starts (indented level v)
  reads : ∀ rest, EndsNumber rest → reader (indented level v ++ rest) = some (v.reread, rest)

section Parts

variable {reader : List Char → Option (Json × List Char)} {level : Nat}

/-- The items of an array are read one after the other up to the closing bracket. -/
theorem readItems_indented {v : Json} {items : List Json} {fuel : Nat} {cs : List Char}
    (rest : List Char) (hreads : ∀ w ∈ v :: items, ReadsIndented reader (level + 1) w)
    (hfuel : items.length < fuel)
    (hcs : skip cs = indented (level + 1) v ++ (restItemsIndented level items ++ rest)) :
    readItems reader fuel cs = some (rereadItems (v :: items), rest) := by
  induction items generalizing v fuel cs with
  | nil =>
    cases fuel with
    | zero => simp at hfuel
    | succ fuel =>
      have hv := (hreads v List.mem_cons_self).reads _ (endsNumber_restItemsIndented level [] rest)
      have hclose : skip (restItemsIndented level [] ++ rest) = ']' :: rest := by
        rw [restItemsIndented, List.append_assoc, skip_newLine]
        exact skip_cons rfl rest
      rw [readItems, hcs, hv]
      simp only [hclose]
      rfl
  | cons w items ih =>
    cases fuel with
    | zero => simp at hfuel
    | succ fuel =>
      obtain ⟨hfirst, hothers⟩ := List.forall_mem_cons.mp hreads
      have hv := hfirst.reads _ (endsNumber_restItemsIndented level (w :: items) rest)
      have hcomma : skip (restItemsIndented level (w :: items) ++ rest)
          = ',' :: (newLine (level + 1)
              ++ (indented (level + 1) w ++ (restItemsIndented level items ++ rest))) := by
        simp only [restItemsIndented, List.cons_append, List.append_assoc]
        exact skip_cons rfl _
      have htail := ih hothers (by simpa using hfuel)
        (skip_newLine_starts (hothers w List.mem_cons_self).starts (level + 1) _)
      rw [readItems, hcs, hv]
      simp only [hcomma, htail, Option.map_some]
      rfl

/-- A key, its colon and the blank behind it. -/
theorem readKey_indented {cs : List Char} {key : String} {rest : List Char}
    (hcs : skip cs = stringChars key ++ ':' :: rest) : readKey cs = some (key, rest) := by
  have hkey := readKey_stringChars key rest
  rw [readKey, ← hcs, skip_skip] at hkey
  exact hkey

/-- The fields of an object are read one after the other up to the closing brace. -/
theorem readFields_indented {key : String} {v : Json} {fields : Fields} {fuel : Nat}
    {cs : List Char} (rest : List Char)
    (hreads : ∀ field ∈ (key, v) :: fields, ReadsIndented reader (level + 1) field.2)
    (hfuel : fields.length < fuel)
    (hcs : skip cs = stringChars key ++ ':' :: ' ' ::
      (indented (level + 1) v ++ (restFieldsIndented level fields ++ rest))) :
    readFields reader fuel cs = some (rereadFields ((key, v) :: fields), rest) := by
  induction fields generalizing key v fuel cs with
  | nil =>
    cases fuel with
    | zero => simp at hfuel
    | succ fuel =>
      have hread := hreads (key, v) List.mem_cons_self
      have hv := hread.reads _ (endsNumber_restFieldsIndented level [] rest)
      have hclose : skip (restFieldsIndented level [] ++ rest) = '\x7d' :: rest := by
        rw [restFieldsIndented, List.append_assoc, skip_newLine]
        exact skip_cons rfl rest
      rw [readFields, readKey_indented hcs]
      simp only [skip_blank_starts hread.starts, hv, hclose]
      rfl
  | cons field fields ih =>
    obtain ⟨next, w⟩ := field
    cases fuel with
    | zero => simp at hfuel
    | succ fuel =>
      obtain ⟨hfirst, hothers⟩ := List.forall_mem_cons.mp hreads
      have hv := hfirst.reads _ (endsNumber_restFieldsIndented level ((next, w) :: fields) rest)
      have hcomma : skip (restFieldsIndented level ((next, w) :: fields) ++ rest)
          = ',' :: (newLine (level + 1) ++ (stringChars next ++ ':' :: ' ' ::
              (indented (level + 1) w ++ (restFieldsIndented level fields ++ rest)))) := by
        simp only [restFieldsIndented, List.cons_append, List.append_assoc, List.nil_append]
        exact skip_cons rfl _
      have htail := ih hothers (by simpa using hfuel)
        (skip_newLine_starts (starts_stringChars next) (level + 1) _)
      rw [readFields, readKey_indented hcs]
      simp only [skip_blank_starts hfirst.starts, hv, hcomma, htail, Option.map_some]
      rfl

end Parts

/-! ## Whole values -/

theorem isExact_of_scalar {levels : Nat} {v : Json} (h : isReadable levels v = true)
    (hfloat : ∀ x, v ≠ .float x) (harr : ∀ items, v ≠ .arr items)
    (hobj : ∀ fields, v ≠ .obj fields) : isExact levels v = true ∧ v.reread = v := by
  cases v with
  | float x => exact absurd rfl (hfloat x)
  | arr items => exact absurd rfl (harr items)
  | obj fields => exact absurd rfl (hobj fields)
  | int n => exact ⟨by cases levels <;> simpa only [isExact, isReadable] using h, rfl⟩
  | _ => exact ⟨by cases levels <;> rfl, rfl⟩

/-- Doubles. -/
theorem readsIndented_float {levels level : Nat} {x : Float} (h : isFinite x = true) :
    ReadsIndented (readValue levels) level (.float x) := by
  have hchars : indented level (.float x) = (Layout.json.text x).toList := rfl
  have halone := readNumber_text h endsNumber_nil
  rw [List.append_nil] at halone
  obtain ⟨c, cs, hcs, hc⟩ := exists_cons_of_readNumber halone
  have hne : ∀ d : Char, d.isDigit = false → d ≠ '-' → c ≠ d := by
    rintro d hd hminus rfl
    rcases hc with hc | hc
    · exact absurd (hc.symm.trans hd) (by decide)
    · exact hminus hc
  have hspace : isSpace c = false := by
    rcases hc with hc | rfl
    · exact not_isSpace_of_isDigit hc
    · rfl
  rw [← hchars] at hcs
  refine ⟨⟨c, cs, hcs, hspace, hne _ rfl (by decide), hne _ rfl (by decide)⟩, fun rest hrest => ?_⟩
  have hread := readNumber_text h hrest
  rw [← hchars, hcs, List.cons_append] at hread
  rw [hcs, List.cons_append, readValue_scalar (hne _ rfl (by decide)) (hne _ rfl (by decide)),
    readScalar_number hc, hread]
  rfl

theorem indented_eq_chars {v : Json} (harr : ∀ items, v ≠ .arr items)
    (hobj : ∀ fields, v ≠ .obj fields) (level : Nat) : indented level v = chars v := by
  cases v with
  | arr items => exact absurd rfl (harr items)
  | obj fields => exact absurd rfl (hobj fields)
  | _ => rfl

/-- Values that are neither arrays nor objects. -/
theorem readsIndented_scalar {levels level : Nat} {v : Json} (h : isReadable levels v = true)
    (harr : ∀ items, v ≠ .arr items) (hobj : ∀ fields, v ≠ .obj fields) :
    ReadsIndented (readValue levels) level v := by
  by_cases hfloat : ∃ x, v = .float x
  · obtain ⟨x, rfl⟩ := hfloat
    have hfinite : isFinite x = true := by cases levels <;> exact h
    exact readsIndented_float hfinite
  · obtain ⟨hexact, hsame⟩ := isExact_of_scalar h (fun x hx => hfloat ⟨x, hx⟩) harr hobj
    have heq := indented_eq_chars harr hobj level
    refine ⟨?_, fun rest hrest => ?_⟩
    · rw [heq]
      exact starts_chars hexact
    · rw [heq, hsame]
      exact readValue_scalarChars hexact harr hobj hrest

theorem readsIndented_arr {levels level : Nat} {items : List Json}
    (hreads : ∀ v ∈ items, ReadsIndented (readValue levels) (level + 1) v) :
    ReadsIndented (readValue (levels + 1)) level (.arr items) := by
  cases items with
  | nil =>
    refine ⟨⟨_, _, rfl, rfl, by decide, by decide⟩, fun rest _ => ?_⟩
    have hskip : skip (']' :: rest) = ']' :: rest := skip_cons rfl rest
    have hchars : indented level (.arr []) ++ rest = '[' :: ']' :: rest := rfl
    rw [hchars, readValue, hskip]
    rfl
  | cons v items =>
    refine ⟨⟨_, _, rfl, rfl, by decide, by decide⟩, fun rest _ => ?_⟩
    have hread := hreads v List.mem_cons_self
    have hchars : indented level (.arr (v :: items)) ++ rest = '[' :: (newLine (level + 1)
        ++ (indented (level + 1) v ++ (restItemsIndented level items ++ rest))) := by
      simp only [indented, List.cons_append, List.append_assoc]
    have hfuel : items.length
        < (indented (level + 1) v ++ (restItemsIndented level items ++ rest)).length + 1 := by
      have hlength := length_lt_restItemsIndented level items
      simp only [List.length_append]
      omega
    have hitems := readItems_indented rest hreads hfuel (skip_of_starts hread.starts _)
    rw [hchars, readValue, skip_newLine_starts hread.starts]
    obtain ⟨c, cs, hcs, _, hbracket, _⟩ := hread.starts
    simp only [hcs, List.cons_append] at hitems ⊢
    split
    · next heq => exact absurd (List.cons.inj heq).1 hbracket
    · rw [hitems]
      rfl

theorem readsIndented_obj {levels level : Nat} {fields : Fields}
    (hreads : ∀ field ∈ fields, ReadsIndented (readValue levels) (level + 1) field.2) :
    ReadsIndented (readValue (levels + 1)) level (.obj fields) := by
  cases fields with
  | nil =>
    refine ⟨⟨_, _, rfl, rfl, by decide, by decide⟩, fun rest _ => ?_⟩
    have hskip : skip ('\x7d' :: rest) = '\x7d' :: rest := skip_cons rfl rest
    have hchars : indented level (.obj []) ++ rest = '\x7b' :: '\x7d' :: rest := rfl
    rw [hchars, readValue, hskip]
    rfl
  | cons field fields =>
    obtain ⟨key, v⟩ := field
    refine ⟨⟨_, _, rfl, rfl, by decide, by decide⟩, fun rest _ => ?_⟩
    have hchars : indented level (.obj ((key, v) :: fields)) ++ rest
        = '\x7b' :: (newLine (level + 1) ++ (stringChars key ++ ':' :: ' ' ::
          (indented (level + 1) v ++ (restFieldsIndented level fields ++ rest)))) := by
      simp only [indented, List.cons_append, List.append_assoc, List.nil_append]
    have hfuel : fields.length < (stringChars key ++ ':' :: ' ' ::
        (indented (level + 1) v ++ (restFieldsIndented level fields ++ rest))).length + 1 := by
      have hlength := length_lt_restFieldsIndented level fields
      simp only [List.length_append, List.length_cons]
      omega
    have hfields := readFields_indented rest hreads hfuel
      (skip_of_starts (starts_stringChars key) _)
    rw [hchars, readValue, skip_newLine_starts (starts_stringChars key)]
    split
    · next heq => exact absurd (List.cons.inj heq).1 (by decide)
    · rw [hfields]
      rfl

/-- The indented text of a value is read, whatever may follow it, by induction on the levels. -/
theorem reads_indented {levels : Nat} {v : Json} (h : isReadable levels v = true) (level : Nat) :
    ReadsIndented (readValue levels) level v := by
  induction levels generalizing v level with
  | zero =>
    refine readsIndented_scalar h ?_ ?_
    · rintro items rfl
      simp [isReadable] at h
    · rintro fields rfl
      simp [isReadable] at h
  | succ levels ih =>
    cases v with
    | arr items =>
      rw [isReadable_arr] at h
      exact readsIndented_arr fun v hv => ih (h v hv) (level + 1)
    | obj fields =>
      rw [isReadable_obj] at h
      exact readsIndented_obj fun field hf => ih (h.2 field hf) (level + 1)
    | _ => exact readsIndented_scalar h (by simp) (by simp)

/-- **The indented text of a value is read as the value with its doubles read again.** -/
theorem readRaw?_prettyText {v : Json} (h : isReadable maxLevels v = true) :
    readRaw? v.prettyText = some v.reread := by
  have hread := reads_indented h 0
  have hwhole := hread.reads [] endsNumber_nil
  have hskip := skip_of_starts hread.starts []
  rw [List.append_nil] at hwhole hskip
  rw [readRaw?, prettyText, String.toList_ofList, hskip, hwhole]
  rfl

/-- Nothing is merged in a value whose objects have each key once. -/
theorem merged_of_isReadable {levels : Nat} {v : Json} (h : isReadable levels v = true) :
    merged v = v := by
  induction levels generalizing v with
  | zero => cases v <;> simp [isReadable] at h <;> rfl
  | succ levels ih =>
    cases v with
    | arr items =>
      rw [isReadable_arr] at h
      rw [merged, mergedItems_of_forall fun v hv => ih (h v hv)]
    | obj fields =>
      rw [isReadable_obj] at h
      rw [merged, mergedFields_of_forall fun field hf => ih (h.2 field hf),
        Keyed.merged_of_nodup h.1]
    | _ => rfl

end DualStore.Json
