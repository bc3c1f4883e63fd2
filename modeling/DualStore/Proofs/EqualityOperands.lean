import DualStore.Proofs.AcceptedPipelines
import DualStore.Proofs.SameValues

/-!
# Operands of equalities

An equality asks a field to equal its operand. In a filter the operand stands where operators may
stand too, and the two are told apart by their form alone: a map all of whose keys name operators is
taken as operators. Every other operand is data, whatever it holds.

* `equals_obj`, `equals_str_eq_false`: what equals an object, and what equals a text;
* `passes_on_itself`, `passes_fresh_text`: operators that an object of operators passes itself, and
  that a text passes that nowhere occurs in them;
* `satisfies_single`, `satisfies_field`: the filter of one field;
* `isPlain_of_data`: only plain operands are compared as data in every document;
* `equality_operands`: the main statement;
* `operators_as_operand`: a map that selects other documents than those that hold it.
-/

namespace DualStore.Document

open Json

/-! ## Comparing objects -/

theorem compareValues_obj (fields : Fields) (w : Json) : compareValues (.obj fields) w = none := rfl

theorem equals_obj (fields : Fields) (w : Json) :
    equals (some (.obj fields)) w = same (.obj fields) w := by
  simp [equals, compareValues_obj]

theorem equals_str_eq_false {s : String} {w : Json} (h : w ≠ .str s) :
    equals (some (.str s)) w = false := by
  cases w with
  | str t =>
    have hne : s ≠ t := fun heq => h (by rw [heq])
    simp [equals, compareValues, same, hne]
  | _ => simp [equals, compareValues, compareNumbers, asInt64?, asFloat?, same]

/-! ## Operators on themselves -/

/-- The operators that an object passes although it equals nothing that the operator expects: those
that ask for something else. -/
theorem passes_on_itself {fields : Fields} {levels : Nat} {name : String} {expected : Json}
    (hwithin : ∀ w, fitsLevels levels w = true → same (.obj fields) w = false)
    (hexpected : fitsLevels levels expected = true)
    (h : testOperator (some (.obj fields)) name expected = .ok true) :
    name = "$ne" ∨ name = "$nin" ∧ ∃ items, expected = .arr items := by
  have hdiffers : equals (some (.obj fields)) expected = false := by
    rw [equals_obj, hwithin expected hexpected]
  have hordered : ∀ test, ordered (some (.obj fields)) expected test = false := fun _ => rfl
  have hpattern : holdsPattern (some (.obj fields)) expected = false := rfl
  have hitems : ∀ items, expected = .arr items →
      items.any (equals (some (.obj fields))) = false := by
    rintro items rfl
    rw [List.any_eq_false]
    intro w hw
    rw [equals_obj, hwithin w (fitsLevels_item hexpected hw)]
    exact Bool.false_ne_true
  simp only [testOperator, hdiffers, hordered, hpattern] at h
  split_ifs at h with heq hne hlt hlte hgt hgte hin hnin
  · simp at h
  · exact .inl hne
  · simp at h
  · simp at h
  · simp at h
  · simp at h
  · cases expected with
    | arr items => simp [expectItems, Except.map, hitems items rfl] at h
    | _ => simp [expectItems, Except.map] at h
  · cases expected with
    | arr items => exact .inr ⟨hnin, items, rfl⟩
    | _ => simp [expectItems, Except.map] at h
  · simp at h

/-- Among finitely many values some text is missing. -/
theorem exists_fresh_text (ws : List Json) : ∃ s : String, ∀ w ∈ ws, w ≠ .str s := by
  obtain ⟨s, hs⟩ := Infinite.exists_notMem_finset (ws.filterMap asText?).toFinset
  rw [List.mem_toFinset, List.mem_filterMap] at hs
  exact ⟨s, fun w hw heq => hs ⟨w, hw, by rw [heq]; rfl⟩⟩

/-- What an operator expects of a field, one by one. -/
def expectations (expected : Json) : List Json := expected :: (asList? expected).getD []

/-- A text that is not expected passes the operators that ask for something else. -/
theorem passes_fresh_text {s : String} {name : String} {expected : Json}
    (hname : name = "$ne" ∨ name = "$nin" ∧ ∃ items, expected = .arr items)
    (hfresh : ∀ w ∈ expectations expected, w ≠ .str s) :
    testOperator (some (.str s)) name expected = .ok true := by
  rcases hname with rfl | ⟨rfl, items, rfl⟩
  · have hdiffers := equals_str_eq_false (hfresh expected List.mem_cons_self)
    simp [testOperator, hdiffers]
  · have hnone : items.any (equals (some (.str s))) = false := by
      rw [List.any_eq_false]
      intro w hw
      rw [equals_str_eq_false (hfresh w (List.mem_cons_of_mem _ hw))]
      exact Bool.false_ne_true
    simp [testOperator, expectItems, Except.map, hnone]

/-! ## One equality -/

variable {key : String} {v : Value}

theorem filterOf_equality (idField key : String) (v : Value) :
    filterOf (({} : Criteria).eq key v).conditions idField
      = .ok [(documentKey idField key, v.toJson)] := rfl

/-- A filter of one field is a condition on that field, also if the name looks like an operator. -/
theorem satisfies_single (hor : key ≠ "$or") (hand : key ≠ "$and") (doc condition : Json) :
    satisfies doc [(key, condition)] = fieldMatches (doc.field? key) condition := by
  rw [satisfies_eq_allHold, allHold, holdsEntry, if_neg hor, if_neg hand]
  cases fieldMatches (doc.field? key) condition with
  | error e => rfl
  | ok b => cases b <;> rfl

theorem satisfies_field (hkey : isOperator key = false) (doc condition : Json) :
    satisfies doc [(key, condition)] = fieldMatches (doc.field? key) condition :=
  satisfies_single (or_ne_of_isOperator hkey).symm (and_ne_of_isOperator hkey).symm doc condition

theorem field?_single (key : String) (w : Json) : (Json.obj [(key, w)]).field? key = some w := by
  simp [field?, Keyed.get?]

/-- An operand that is not plain is a map of operators. -/
theorem operators?_of_not_plain (h : ¬ v.IsPlain) :
    ∃ entries, v = .map entries ∧ operators? v.toJson = some (Value.entriesToJson entries) := by
  cases v with
  | map entries =>
    rw [Value.IsPlain, not_or, not_exists] at h
    refine ⟨entries, rfl, operators?_obj ?_ ?_⟩
    · intro hnil
      have hkeys := keys_entriesToJson entries
      rw [hnil] at hkeys
      exact h.1 (List.map_eq_nil_iff.mp hkeys.symm)
    · intro o ho
      have hmem : o.1 ∈ Keyed.keys entries := by
        rw [← keys_entriesToJson]
        exact Keyed.mem_keys ho
      obtain ⟨e, he, heq⟩ := List.mem_map.mp hmem
      have hmarked := h.2 e
      rw [heq] at hmarked
      simpa [he] using hmarked
  | _ => exact absurd trivial h

/-- A field meets a map of operators when it passes all of them. -/
theorem fieldMatches_operators {w : Json} {operators : Fields} (actual : Option Json)
    (h : operators? w = some operators) :
    fieldMatches actual w = .ok true ↔
      ∀ o ∈ operators, testOperator actual o.1 o.2 = .ok true := by
  simp only [fieldMatches, h]
  rw [testOperators_eq_allHold, allHold_eq_true]

/-- A map of operators is not compared as data in every document: the document that holds the map
in the field would have to pass all operators, and then so would one that holds a new text. -/
theorem isPlain_of_data (hv : v.toJson.IsValue)
    (h : ∀ w, fieldMatches (some w) v.toJson = .ok (equals (some w) v.toJson)) : v.IsPlain := by
  by_contra hplain
  obtain ⟨entries, rfl, hoperators⟩ := operators?_of_not_plain hplain
  obtain ⟨levels, hfits, hwithin⟩ := exists_levels_within hv
  have hpasses : ∀ w, equals (some w) (Value.map entries).toJson = true ↔
      ∀ o ∈ Value.entriesToJson entries, testOperator (some w) o.1 o.2 = .ok true := by
    intro w
    rw [← fieldMatches_operators (some w) hoperators, h w, Except.ok.injEq]
  have hself : equals (some (Value.map entries).toJson) (Value.map entries).toJson = true := by
    rw [Value.toJson, equals_obj]
    exact same_refl hv
  obtain ⟨s, hs⟩ :=
    exists_fresh_text ((Value.entriesToJson entries).flatMap fun o => expectations o.2)
  -- What the map passes itself are operators that ask for something else, as the new text is.
  have hfresh : equals (some (.str s)) (Value.map entries).toJson = true := by
    rw [hpasses]
    intro o ho
    have hname := passes_on_itself hwithin (hfits o ho) ((hpasses _).mp hself o ho)
    exact passes_fresh_text hname fun w hw => hs w (List.mem_flatMap.mpr ⟨o, ho, hw⟩)
  rw [equals_str_eq_false (by simp [Value.toJson])] at hfresh
  exact Bool.false_ne_true hfresh

/-! ## Operands as data -/

/-- **What an equality asks for.** A condition that a field equals an operand always compiles, and
in every document it asks whether the field equals the operand exactly when the operand is plain: no
map, the empty map, or a map in which some key names no operator. Any other map is taken as
operators, all of which the field has to pass. -/
theorem equality_operands (hkey : isOperator key = false) (hv : v.toJson.IsValue)
    (idField : String) :
    ∃ filter, filterOf (({} : Criteria).eq key v).conditions idField = .ok filter ∧
      (v.IsPlain ↔ ∀ doc, satisfies doc filter =
        .ok (equals (doc.field? (documentKey idField key)) v.toJson)) ∧
      (¬ v.IsPlain → ∃ operators, v.toJson = .obj operators ∧
        ∀ doc, satisfies doc filter = .ok true ↔ ∀ o ∈ operators,
          testOperator (doc.field? (documentKey idField key)) o.1 o.2 = .ok true) := by
  have hfield := isOperator_documentKey hkey idField
  refine ⟨_, filterOf_equality idField key v, ⟨fun hplain doc => ?_, fun hdata => ?_⟩,
    fun hplain => ?_⟩
  · rw [satisfies_field hfield, fieldMatches, operators?_toJson hplain]
  · refine isPlain_of_data hv fun w => ?_
    have hdoc := hdata (.obj [(documentKey idField key, w)])
    rwa [satisfies_field hfield, field?_single] at hdoc
  · obtain ⟨entries, rfl, hoperators⟩ := operators?_of_not_plain hplain
    refine ⟨_, (operators?_eq_some hoperators).1, fun doc => ?_⟩
    rw [satisfies_field hfield, fieldMatches_operators _ hoperators]

/-- A map with an operator among its keys and a key that is none is compared as it stands. -/
theorem equality_operands_amount : ∃ filter,
    filterOf (({} : Criteria).eq "price"
      (.map [("$gt", .integer 5), ("unit", .text "eur")])).conditions "id" = .ok filter ∧
    ∀ doc, satisfies doc filter = .ok (equals (doc.field? "price")
      (.obj [("$gt", .int 5), ("unit", .str "eur")])) := by
  have hkey : isOperator "price" = false := by decide
  obtain ⟨filter, hfilter, hplain, -⟩ := equality_operands
    (v := .map [("$gt", .integer 5), ("unit", .text "eur")]) hkey ⟨2, by decide⟩ "id"
  refine ⟨filter, hfilter, fun doc => ?_⟩
  exact hplain.mp (.inr ⟨("unit", .text "eur"), by simp, by decide⟩) doc

/-- A balance that is asked to equal a map of one operator: a document whose balance is a number
passes, although a number equals no map. -/
theorem operators_as_operand : isOperator "balance" = false ∧ ∃ filter,
    filterOf (({} : Criteria).eq "balance" (.map [("$gt", .integer 0)])).conditions "id"
      = .ok filter ∧
    satisfies (.obj [("_id", .int 7), ("balance", .int 5)]) filter = .ok true ∧
    equals (some (.int 5)) (Value.map [("$gt", .integer 0)]).toJson = false :=
  ⟨by decide, _, filterOf_equality "id" "balance" (.map [("$gt", .integer 0)]), rfl,
    by decide⟩

end DualStore.Document
