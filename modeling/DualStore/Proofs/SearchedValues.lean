import DualStore.Proofs.ColumnCells
import DualStore.Proofs.IndentedText
import DualStore.Proofs.IntegerRows
import DualStore.Proofs.SerializedForms

/-!
# Values searched for

A field is stored as its kind says: a date as a date text, a list or a map as its JSON text. A
condition compares with the value as it is given, in which the fields of objects are ordered by key
and an integer of more than 64 bits with sign is a double.

* `Json.settle`, `Json.IsSteady`: a value as a condition has it, and the values that stay the same;
* `Json.text_settle_eq_iff`: a value has the same text exactly if it stays;
* `SearchedAsStored`, `Writes.bound_eq_iff`: whether a condition compares with what is stored;
* `ColumnKeeps`, `Writes.clause_holds`: the condition on a row that keeps what is stored;
* `own_value_found`: the main statement;
* `own_value_lost`: a date that is not found.
-/

namespace DualStore

namespace Json

open Decimal

/-! ## Values as conditions have them -/

/-- A value as a condition has it. -/
def settle (v : Json) : Json := (Value.ofJson v).toJson

mutual

/-- Whether a condition has a value as it is: integers have 64 bits with sign, and the fields of
every object are ordered by key. -/
def IsSteady : Json → Prop
  | .int n => fitsInt64 n = true
  | .arr items => ItemsSteady items
  | .obj fields => Keyed.IsSorted fields ∧ FieldsSteady fields
  | _ => True

/-- Whether a condition has the items of an array as they are. -/
def ItemsSteady : List Json → Prop
  | [] => True
  | v :: rest => IsSteady v ∧ ItemsSteady rest

/-- Whether a condition has the values of the fields of an object as they are. -/
def FieldsSteady : Fields → Prop
  | [] => True
  | (_, v) :: rest => IsSteady v ∧ FieldsSteady rest

end

theorem itemsSteady_iff {items : List Json} : ItemsSteady items ↔ ∀ v ∈ items, v.IsSteady := by
  induction items with
  | nil => simp [ItemsSteady]
  | cons v rest ih => simp [ItemsSteady, ih]

theorem fieldsSteady_iff {fields : Fields} :
    FieldsSteady fields ↔ ∀ field ∈ fields, field.2.IsSteady := by
  induction fields with
  | nil => simp [FieldsSteady]
  | cons field rest ih => simp [FieldsSteady, ih]

theorem settle_arr (items : List Json) : settle (.arr items) = .arr (items.map settle) := by
  have hitems : ∀ items : List Json,
      Value.itemsToJson (Value.ofItems items) = items.map settle := by
    intro items
    induction items with
    | nil => rfl
    | cons v rest ih => rw [Value.ofItems, Value.itemsToJson, ih, List.map_cons, settle]
  rw [settle, Value.ofJson, Value.toJson, hitems]

/-- The fields of an object as a condition has them. -/
def settleFields (fields : Fields) : Fields :=
  (Keyed.sorted (fields.map fun field => (field.1, Value.ofJson field.2))).map fun entry =>
    (entry.1, entry.2.toJson)

theorem settle_obj (fields : Fields) : settle (.obj fields) = .obj (settleFields fields) := by
  have hfields : ∀ fields : Fields,
      Value.ofFields fields = fields.map fun field => (field.1, Value.ofJson field.2) := by
    intro fields
    induction fields with
    | nil => rfl
    | cons field rest ih => rw [Value.ofFields, ih, List.map_cons]
  have hentries : ∀ entries : List (String × Value),
      Value.entriesToJson entries = entries.map fun entry => (entry.1, entry.2.toJson) := by
    intro entries
    induction entries with
    | nil => rfl
    | cons entry rest ih => rw [Value.entriesToJson, ih, List.map_cons]
  rw [settle, Value.ofJson, Value.toJson, hfields, hentries, settleFields]

theorem isSorted_settleFields (fields : Fields) : Keyed.IsSorted (settleFields fields) := by
  have hsorted := Keyed.isSorted_sorted (fields.map fun field => (field.1, Value.ofJson field.2))
  rwa [Keyed.IsSorted, settleFields, Keyed.keys, List.map_map]

theorem mem_settleFields {fields : Fields} {field : String × Json}
    (h : field ∈ settleFields fields) : ∃ v, (field.1, v) ∈ fields ∧ field.2 = settle v := by
  obtain ⟨entry, hentry, rfl⟩ := List.mem_map.mp h
  obtain ⟨⟨key, v⟩, hfield, rfl⟩ := List.mem_map.mp (Keyed.mem_of_mem_sorted hentry)
  exact ⟨v, hfield, rfl⟩

/-- The fields of an object that is ordered by key keep their places. -/
theorem settleFields_of_isSorted {fields : Fields} (h : Keyed.IsSorted fields) :
    settleFields fields = fields.map fun field => (field.1, settle field.2) := by
  have hsorted : Keyed.IsSorted (fields.map fun field => (field.1, Value.ofJson field.2)) := by
    rwa [Keyed.IsSorted, Keyed.keys, List.map_map]
  rw [settleFields, Keyed.sorted_of_isSorted hsorted, List.map_map]
  rfl

theorem settle_scalar {levels : Nat} {v : Json} (h : isReadable levels v = true)
    (harr : ∀ items, v ≠ .arr items) (hobj : ∀ fields, v ≠ .obj fields) (hv : v.IsSteady) :
    settle v = v := by
  cases v with
  | int n =>
    have hfits : fitsInt64 n = true := hv
    rw [settle, Value.ofJson, if_pos hfits, Value.toJson]
  | float x =>
    have hfinite : isFinite x = true := by cases levels <;> exact h
    rw [settle, Value.ofJson, Value.toJson, ofFloat, if_pos hfinite]
  | arr items => exact absurd rfl (harr items)
  | obj fields => exact absurd rfl (hobj fields)
  | _ => rfl

/-- A steady value stays as it is. -/
theorem settle_of_steady {levels : Nat} {v : Json} (h : isReadable levels v = true)
    (hv : v.IsSteady) : settle v = v := by
  refine readable_induction (P := fun v => v.IsSteady → settle v = v) settle_scalar ?_ ?_ h hv
  · intro items ih hitems
    have hsame : items.map settle = items.map id :=
      List.map_congr_left fun v hmem => ih v hmem (itemsSteady_iff.mp hitems v hmem)
    rw [settle_arr, hsame, List.map_id]
  · rintro fields - ih ⟨hsorted, hfields⟩
    have hsame : (fields.map fun field => (field.1, settle field.2)) = fields.map id := by
      apply List.map_congr_left
      intro field hfield
      rw [ih field hfield (fieldsSteady_iff.mp hfields field hfield)]
      rfl
    rw [settle_obj, settleFields_of_isSorted hsorted, hsame, List.map_id]

/-! ## Texts tell whether a value stays -/

/-- A string is found again at the front of a text. -/
theorem stringChars_append_inj {s t : String} {rest others : List Char}
    (h : stringChars s ++ rest = stringChars t ++ others) : s = t ∧ rest = others := by
  obtain ⟨inside, hinside, hs⟩ := readString_stringChars s rest
  obtain ⟨behind, hbehind, ht⟩ := readString_stringChars t others
  rw [hinside, hbehind] at h
  rw [(List.cons.inj h).2, ht] at hs
  obtain ⟨hst, hrest⟩ := Prod.mk.inj (Option.some.inj hs)
  exact ⟨hst.symm, hrest.symm⟩

/-- If the text of a value as a condition has it is found in the place of the text of the value,
the value stays as it is. -/
def TextTells (v : Json) : Prop :=
  ∀ rest others, EndsValue rest → EndsValue others →
    chars (settle v) ++ rest = chars v ++ others → v.IsSteady ∧ rest = others

theorem textTells_items {items : List Json} (htells : ∀ v ∈ items, TextTells v)
    {rest others : List Char}
    (h : restItems (items.map settle) ++ rest = restItems items ++ others) :
    ItemsSteady items ∧ rest = others := by
  induction items with
  | nil => exact ⟨trivial, (List.cons.inj h).2⟩
  | cons v items ih =>
    obtain ⟨hv, hitems⟩ := List.forall_mem_cons.mp htells
    simp only [List.map_cons, restItems, List.cons_append, List.append_assoc] at h
    obtain ⟨hsteady, hrest⟩ := hv _ _ (endsValue_restItems _ _) (endsValue_restItems _ _)
      (List.cons.inj h).2
    obtain ⟨hitems, hothers⟩ := ih hitems hrest
    exact ⟨⟨hsteady, hitems⟩, hothers⟩

/-- Fields behind one another: the keys are found in order, and with them the values. -/
theorem textTells_fields {fields settled : Fields} (htells : ∀ field ∈ fields, TextTells field.2)
    (hvalues : ∀ field ∈ fields, ∀ other ∈ settled, other.1 = field.1 →
      other.2 = settle field.2) {rest others : List Char}
    (h : restFields settled ++ rest = restFields fields ++ others) :
    Keyed.keys settled = Keyed.keys fields ∧ FieldsSteady fields ∧ rest = others := by
  induction fields generalizing settled with
  | nil =>
    cases settled with
    | nil => exact ⟨rfl, trivial, (List.cons.inj h).2⟩
    | cons other settled => simp [restFields] at h
  | cons field fields ih =>
    cases settled with
    | nil => simp [restFields] at h
    | cons other settled =>
      obtain ⟨hv, hfields⟩ := List.forall_mem_cons.mp htells
      simp only [restFields, List.cons_append, List.append_assoc] at h
      -- The settled fields may stand in another order, so the keys are compared before the values.
      obtain ⟨hkey, hbehind⟩ := stringChars_append_inj (List.cons.inj h).2
      have hvalue := hvalues field List.mem_cons_self other List.mem_cons_self hkey
      rw [hvalue] at hbehind
      obtain ⟨hsteady, hrest⟩ := hv _ _ (endsValue_restFields _ _) (endsValue_restFields _ _)
        (List.cons.inj hbehind).2
      obtain ⟨hkeys, hsteadies, hothers⟩ := ih hfields
        (fun field hfield other hother => hvalues field (List.mem_cons_of_mem _ hfield) other
          (List.mem_cons_of_mem _ hother)) hrest
      refine ⟨?_, ⟨hsteady, hsteadies⟩, hothers⟩
      simp only [Keyed.keys, List.map_cons] at hkeys ⊢
      rw [hkey, hkeys]

theorem textTells_int {n : Int} (hlow : -(2 ^ 63) ≤ n) (hhigh : n < 2 ^ 64) :
    TextTells (.int n) := by
  intro rest others hrest hothers h
  by_cases hfits : fitsInt64 n = true
  · have hsettle : settle (.int n) = .int n := by
      rw [settle, Value.ofJson, if_pos hfits, Value.toJson]
    rw [hsettle] at h
    exact ⟨hfits, List.append_cancel_left h⟩
  · -- A double stands in the place of the integer, and no integer is read from its text.
    have hread := readNumber_intChars hlow hhigh hothers.endsNumber
    have hsettle : settle (.int n) = ofFloat isFinite (Float.ofInt n) := by
      rw [settle, Value.ofJson, if_neg hfits, Value.toJson]
    have hchars : chars (.int n) = intChars n := rfl
    rw [hsettle, ofFloat, hchars] at h
    rw [← h] at hread
    by_cases hfinite : isFinite (Float.ofInt n) = true
    · have htext : chars (.float (Float.ofInt n)) = (Layout.json.text (Float.ofInt n)).toList := rfl
      rw [if_pos hfinite, htext, readNumber_text hfinite hrest.endsNumber] at hread
      simp at hread
    · have hnull : readNumber (chars .null ++ rest) = none := rfl
      rw [if_neg hfinite, hnull] at hread
      simp at hread

theorem textTells_scalar {levels : Nat} {v : Json} (h : isReadable levels v = true)
    (harr : ∀ items, v ≠ .arr items) (hobj : ∀ fields, v ≠ .obj fields) : TextTells v := by
  by_cases hint : ∃ n, v = .int n
  · obtain ⟨n, rfl⟩ := hint
    have hrange : -(2 ^ 63) ≤ n ∧ n < 2 ^ 64 := by cases levels <;> simpa [isReadable] using h
    exact textTells_int hrange.1 hrange.2
  · have hv : v.IsSteady := by
      cases v with
      | int n => exact absurd ⟨n, rfl⟩ hint
      | arr items => exact absurd rfl (harr items)
      | obj fields => exact absurd rfl (hobj fields)
      | _ => trivial
    intro rest others _ _ htext
    rw [settle_scalar h harr hobj hv] at htext
    exact ⟨hv, List.append_cancel_left htext⟩

theorem textTells_arr {items : List Json} (htells : ∀ v ∈ items, TextTells v) :
    TextTells (.arr items) := by
  intro rest others _ _ htext
  rw [settle_arr] at htext
  have hitems : restItems (items.map settle) ++ rest = restItems items ++ others := by
    cases items <;> simpa [chars, restItems] using htext
  exact textTells_items htells hitems

theorem textTells_obj {fields : Fields} (hkeys : (Keyed.keys fields).Nodup)
    (htells : ∀ field ∈ fields, TextTells field.2) : TextTells (.obj fields) := by
  intro rest others _ _ htext
  rw [settle_obj] at htext
  have hfields : restFields (settleFields fields) ++ rest = restFields fields ++ others := by
    cases hsettled : settleFields fields <;> cases fields <;>
      simp [hsettled, chars, restFields, stringChars] at htext ⊢ <;> exact htext
  have hvalues : ∀ field ∈ fields, ∀ other ∈ settleFields fields, other.1 = field.1 →
      other.2 = settle field.2 := by
    intro field hfield other hother hkey
    obtain ⟨v, hv, hvalue⟩ := mem_settleFields hother
    rw [hkey] at hv
    have hget := (Keyed.get?_eq_some_iff hkeys field.1 v).mpr hv
    rw [(Keyed.get?_eq_some_iff hkeys field.1 field.2).mpr hfield] at hget
    rw [hvalue, Option.some.inj hget]
  obtain ⟨hsame, hsteady, hrest⟩ := textTells_fields htells hvalues hfields
  have hsorted := isSorted_settleFields fields
  rw [Keyed.IsSorted, hsame] at hsorted
  exact ⟨⟨hsorted, hsteady⟩, hrest⟩

/-- The text of a value as a condition has it is the text of the value exactly if it is steady. -/
theorem text_settle_eq_iff {levels : Nat} {v : Json} (h : isReadable levels v = true) :
    (settle v).text = v.text ↔ v.IsSteady := by
  constructor
  · intro htext
    have hchars : chars (settle v) = chars v := by
      have hlist := congrArg String.toList htext
      rwa [text, text, String.toList_ofList, String.toList_ofList] at hlist
    have htells : TextTells v := readable_induction textTells_scalar (fun _ => textTells_arr)
      (fun _ => textTells_obj) h
    exact (htells [] [] endsValue_nil endsValue_nil (by rw [hchars])).1
  · intro hv
    rw [settle_of_steady h hv]

end Json

namespace Relational

open Model Sql

/-! ## What is stored and what is searched for -/

/-- Whether a condition compares with what a field stores for a value: it is not stored as a date
text, and its lists and maps are steady. -/
def SearchedAsStored (field : Field) : Json → Prop
  | .int n => ¬(field.isDate = true ∧ 0 < n)
  | .arr items => (Json.arr items).IsSteady
  | .obj fields => (Json.obj fields).IsSteady
  | _ => True

variable {zone : Calendar.Zone} {field : Field} {v : Json} {p : Value} {levels : Nat}

theorem ofJson_int {n : Int} (h : Decimal.fitsInt64 n = true) :
    Value.ofJson (.int n) = .integer n := by
  rw [Value.ofJson, if_pos h]

theorem bound_ofJson_arr (items : List Json) :
    (Value.ofJson (.arr items)).bound = .text (Json.settle (.arr items)).text := by
  rw [Json.settle, Value.ofJson, Value.bound]

theorem bound_ofJson_obj (fields : Fields) :
    (Value.ofJson (.obj fields)).bound = .text (Json.settle (.obj fields)).text := by
  rw [Json.settle, Value.ofJson, Value.bound]

/-- The parameter of a condition carries what the field has stored exactly for the values that are
searched for as they are stored. -/
theorem Writes.bound_eq_iff (h : Writes zone field v p) (hv : v.isReadable levels = true) :
    (Value.ofJson v).bound = p.bound ↔ SearchedAsStored field v := by
  cases h with
  | text hkind s => simp [Value.ofJson, SearchedAsStored]
  | integer hkind hfits hplain =>
    rw [ofJson_int hfits]
    exact iff_of_true rfl hplain
  | date hkind hfits hdate hwrite =>
    rw [ofJson_int hfits]
    refine iff_of_false ?_ (not_not_intro hdate)
    simp [Value.bound]
  | list hkind items =>
    rw [bound_ofJson_arr, Value.bound, SearchedAsStored, ← Json.text_settle_eq_iff hv]
    simp
  | map hkind fields =>
    rw [bound_ofJson_obj, Value.bound, SearchedAsStored, ← Json.text_settle_eq_iff hv]
    simp

/-- A date text is no text of an integer. -/
theorem write?_ne_intText {n : Int} {text : String} (h : Calendar.write? n zone = some text)
    (hfits : Decimal.fitsInt64 n = true) : text ≠ Decimal.intText n := by
  rintro rfl
  have hread := (Calendar.readInt64?_write? h).2
  rw [Decimal.intText, String.toList_ofList, Decimal.readInt64?_intChars hfits] at hread
  simp at hread

/-- As texts, the value that is searched for and the one that is stored are the same in the same
cases. -/
theorem Writes.asText_eq_iff (h : Writes zone field v p) (hv : v.isReadable levels = true) :
    (Datum.ofValue p).asText = (Datum.ofValue (Value.ofJson v)).asText
      ↔ SearchedAsStored field v := by
  rw [← h.bound_eq_iff hv]
  cases h with
  | date hkind hfits hdate hwrite =>
    rw [ofJson_int hfits]
    refine iff_of_false (write?_ne_intText hwrite hfits) ?_
    simp [Value.bound]
  | integer hkind hfits hplain => rw [ofJson_int hfits]; simp [Value.bound]
  | text hkind s => simp [Value.ofJson]
  | list hkind items =>
    rw [Datum.ofValue, Datum.ofValue, bound_ofJson_arr, Value.bound]
    simp [Datum.asText, eq_comm]
  | map hkind fields =>
    rw [Datum.ofValue, Datum.ofValue, bound_ofJson_obj, Value.bound]
    simp [Datum.asText, eq_comm]

/-! ## Rows that keep what is stored -/

/-- A row that keeps a value in the column of a key: the key names one column, which has converted
the value as its type asks for. It is a column of texts, or the value is an integer. -/
def ColumnKeeps (shape : TableDef) (row : Row) (key : String) (d : Datum) : Prop :=
  isPlain key = true ∧
    ∃ place, resolve ((scopeOf shape).find []) (keyExpr key) = .ok (.column place)
      ∧ row[place.index]? = some (place.affinity.convert d)
      ∧ (place.affinity = .text ∨ ∃ n, d = .integer n)

/-- A column of texts is compared with a parameter as a text. -/
theorem compareSides_text {d e : Datum} (hd : d.isNull = false) (he : e.isNull = false) :
    compareSides .eq (.text, Affinity.text.convert d) (.none, e)
      = some (decide (d.asText = e.asText)) := by
  have htext : ∀ f : Datum, f.isNull = false → f.toText = .text f.asText := by
    intro f hf
    cases f with
    | null => simp [Datum.isNull] at hf
    | _ => rfl
  have hsides : ∀ f : Datum, convertSides (.text, f) (.none, e) = (f, e.toText) := fun _ => rfl
  simp only [compareSides, Affinity.convert, hsides, htext d hd, htext e he]
  simp [Datum.compare?, Datum.isNull, Datum.order, CompareOp.accepts]

/-- An integer is found in every column that has kept it. -/
theorem compareSides_same (affinity : Affinity) (n : Int) :
    compareSides .eq (affinity, affinity.convert (.integer n)) (.none, .integer n) = some true := by
  by_cases h : affinity = .text
  · subst h
    rw [compareSides_text rfl rfl]
    simp
  · have hkept : affinity.convert (.integer n) = .integer n := by
      cases affinity with
      | text => exact absurd rfl h
      | _ => rfl
    rw [hkept, compareSides_integer h]
    simp [CompareOp.accepts]

/-- What is stored and what is searched for are compared as equal in the same cases. -/
theorem Writes.compareSides_iff (h : Writes zone field v p) (hv : v.isReadable levels = true)
    {affinity : Affinity} (haffinity : affinity = .text ∨ ∃ n, Datum.ofValue p = .integer n) :
    ∃ b, compareSides .eq (affinity, affinity.convert (Datum.ofValue p))
        (.none, Datum.ofValue (Value.ofJson v)) = some b
      ∧ (b = true ↔ SearchedAsStored field v) := by
  rcases haffinity with rfl | ⟨n, hn⟩
  · have hstored : (Datum.ofValue p).isNull = false := by cases h <;> rfl
    have hsearched : (Datum.ofValue (Value.ofJson v)).isNull = false := by
      cases h with
      | text hkind s => rfl
      | integer hkind hfits hplain => rw [ofJson_int hfits]; rfl
      | date hkind hfits hdate hwrite => rw [ofJson_int hfits]; rfl
      | list hkind items => rfl
      | map hkind fields => rfl
    refine ⟨_, compareSides_text hstored hsearched, ?_⟩
    rw [decide_eq_true_eq]
    exact h.asText_eq_iff hv
  · cases h with
    | integer hkind hfits hplain =>
      rw [ofJson_int hfits]
      exact ⟨true, compareSides_same affinity _, iff_of_true rfl hplain⟩
    | _ => simp [Datum.ofValue, Value.bound] at hn

theorem clause_eq (key : String) (q : Value) :
    clause [] [.on .eq key (.one q)] = .ok (" WHERE " ++ key ++ " = ?", [q]) := by
  have hclause : clause [] [.on .eq key (.one q)] = .ok (" WHERE " ++ (key ++ " = ?"), [q]) := rfl
  rw [hclause, String.append_assoc]

/-- The text of an equality, computed on a row that keeps what a field has stored. -/
theorem Writes.clause_holds (h : Writes zone field v p) (hv : v.isReadable levels = true)
    {shape : TableDef} {row : Row} (hrow : ColumnKeeps shape row field.name (Datum.ofValue p)) :
    ∃ condition found b, readClause? (" WHERE " ++ field.name ++ " = ?") [Value.ofJson v]
        = some condition
      ∧ resolveCondition shape condition = .ok found ∧ holds found row = .ok b
      ∧ (b = true ↔ SearchedAsStored field v) := by
  obtain ⟨hplain, place, hplace, hkept, hkind⟩ := hrow
  obtain ⟨b, hcompare, hb⟩ := h.compareSides_iff hv hkind
  let searched : Predicate := .test field.name (.compare .eq (Value.ofJson v))
  have hregular : Predicate.AreRegular [searched] := ⟨⟨hplain, trivial⟩, trivial⟩
  have hread := readClause?_clauseText hregular
  have htext : clauseText [searched] = " WHERE " ++ field.name ++ " = ?" := by
    rw [String.append_assoc]
    rfl
  rw [htext] at hread
  refine ⟨_, some (.compare .eq (.column place) (.value (Datum.ofValue (Value.ofJson v)))), b,
    hread, ?_, ?_, hb⟩
  · have hcondition : conditionOf [searched]
        = some (.compare .eq (keyExpr field.name) (valueExpr (Value.ofJson v))) := rfl
    simp only [hcondition, resolveCondition, resolvePlain, resolve, hplace, valueExpr, bind,
      Except.bind, Except.map]
    rfl
  · simp only [holds, eval, hkept, Option.getD_some, affinityOf, hcompare, bind, Except.bind,
      Except.map, truth_ofTruth]
    simp

/-- **A field is found by its own value exactly if it is stored as it is.** Let a field write a
parameter for a value. An equality with the value binds it as it is, and so does an update that
assigns it; it carries the same integer or text as what is stored exactly if the value is not stored
as a date text and its lists and maps are steady. In these cases, and in no others, the condition is
true of a row that keeps what is stored. -/
theorem own_value_found (hv : v.isReadable levels = true)
    (h : fieldParameter field (some v) zone = .ok (some p)) :
    clause [] [.on .eq field.name (.one (Value.ofJson v))]
        = .ok (" WHERE " ++ field.name ++ " = ?", [Value.ofJson v])
      ∧ (∀ (table : String) (c : Criteria) (filter : List Predicate) (i : Nat),
        predicates? c.conditions = .ok filter →
        c.assignments[i]? = some (field.name, Value.ofJson v) →
        ∃ change, Change.ofCriteria table c = .ok change
          ∧ change.parameters[i]? = some (Value.ofJson v))
      ∧ ((Value.ofJson v).bound = p.bound ↔ SearchedAsStored field v)
      ∧ ∀ (shape : TableDef) (row : Row), ColumnKeeps shape row field.name (Datum.ofValue p) →
        ∃ condition found b, readClause? (" WHERE " ++ field.name ++ " = ?") [Value.ofJson v]
            = some condition
          ∧ resolveCondition shape condition = .ok found ∧ holds found row = .ok b
          ∧ (b = true ↔ SearchedAsStored field v) := by
  have hwrites := writes_of_fieldParameter h
  refine ⟨clause_eq field.name _, ?_, hwrites.bound_eq_iff hv,
    fun shape row hrow => hwrites.clause_holds hv hrow⟩
  intro table c filter i hfilter hi
  have hassigned : c.assignments ≠ [] := by
    intro hnil
    simp [hnil] at hi
  refine ⟨.updateMatching table c.assignments filter, ?_, ?_⟩
  · rw [Change.ofCriteria, if_neg hassigned, hfilter]
  · have hvalue : (c.assignments.map Prod.snd)[i]? = some (Value.ofJson v) := by
      rw [List.getElem?_map, hi]
      rfl
    have hinside : i < (c.assignments.map Prod.snd).length := by
      rw [List.getElem?_eq_some_iff] at hvalue
      exact hvalue.choose
    rw [Change.parameters, List.getElem?_append_left hinside, hvalue]

/-- Scores by name, in the order of the names. -/
theorem own_value_found_scores :
    let field : Field := ⟨"scores", .map .any, false, false⟩
    let v : Json := .obj [("ann", .int 2), ("bob", .arr [.int 1])]
    v.isReadable 2 = true
      ∧ fieldParameter field (some v) .universal = .ok (some (.text v.text))
      ∧ (Value.ofJson v).bound = .text v.text := by
  intro field v
  have hv : v.isReadable 2 = true := by decide
  have hwritten : fieldParameter field (some v) .universal = .ok (some (.text v.text)) := rfl
  have hsteady : SearchedAsStored field v := by
    show (Json.obj _).IsSteady
    have hsorted : Keyed.IsSorted [("ann", Json.int 2), ("bob", .arr [.int 1])] := by
      have hnames : "ann" < "bob" := String.lt_iff.mpr (by decide)
      simpa [Keyed.IsSorted, Keyed.keys] using hnames
    have hone : Decimal.fitsInt64 1 = true := by decide
    have htwo : Decimal.fitsInt64 2 = true := by decide
    exact ⟨hsorted, htwo, ⟨hone, trivial⟩, trivial⟩
  exact ⟨hv, hwritten, (own_value_found hv hwritten).2.2.1.mpr hsteady⟩

/-- A date is stored as a text and searched for as an integer; a map whose keys do not ascend is
stored in its order and searched for in the order of the keys. -/
theorem own_value_lost :
    let born : Field := ⟨"born", .int .w64, false, true⟩
    let scores : Field := ⟨"scores", .map .any, false, false⟩
    let v : Json := .obj [("b", .int 1), ("a", .int 2)]
    (fieldParameter born (some (.int 1700000000123)) .universal
        = .ok (some (.text "2023-11-14 22:13:20"))
      ∧ (Value.ofJson (.int 1700000000123)).bound ≠ (Value.text "2023-11-14 22:13:20").bound)
    ∧ fieldParameter scores (some v) .universal = .ok (some (.text v.text))
      ∧ (Value.ofJson v).bound ≠ (Value.text v.text).bound := by
  intro born scores v
  have htext : Calendar.write? 1700000000123 .universal = some "2023-11-14 22:13:20" := by
    rfl
  have hfits : Decimal.fitsInt64 1700000000123 = true := by decide
  have hborn : fieldParameter born (some (.int 1700000000123)) .universal
      = .ok (some (.text "2023-11-14 22:13:20")) := by
    simp [born, fieldParameter, Json.asInt64?, hfits, htext]
  have hordered : (Value.ofJson v).bound
      = .text (Json.obj [("a", .int 2), ("b", .int 1)]).text := rfl
  refine ⟨⟨hborn, ?_⟩, rfl, ?_⟩
  · rw [ofJson_int hfits]
    simp [Value.bound]
  · rw [hordered]
    simp [Value.bound]
    decide

end Relational

end DualStore
