import DualStore.Proofs.Conjunction
import DualStore.Proofs.IntegerConditions

/-!
# Integer conditions on documents

A compiled filter, tried on a document whose fields hold integers, gives an answer, and the answer
is the truth of the conditions that it was compiled from.

* `FieldHolds`: a key under which a document has an integer;
* `decides_test`: a condition on a field that holds an integer;
* `Decides`, `decides`: contributions that give an answer, and those of conditions;
* `filterOf_decides`: the filter of conditions.
-/

namespace DualStore.Document

/-! ## Tests of a field -/

/-- A key under which a document has an integer of 64 bits; it is no operator and not the name of
the identity in documents. -/
structure FieldHolds (doc : Json) (idField key : String) (x : Int) : Prop where
  notOperator : isOperator key = false
  notIdKey : key ≠ idKey
  field : doc.field? (documentKey idField key) = some (.int x)
  fits : Decimal.fitsInt64 x = true

theorem compareValues_int {x n : Int} (hx : Decimal.fitsInt64 x = true)
    (hn : Decimal.fitsInt64 n = true) : compareValues (.int x) (.int n) = some (compare x n) := by
  simp only [compareValues, compareNumbers, Json.asInt64?, hx, hn, if_true]

theorem equals_int {x n : Int} (hx : Decimal.fitsInt64 x = true)
    (hn : Decimal.fitsInt64 n = true) : equals (some (.int x)) (.int n) = decide (x = n) := by
  simp only [equals, compareValues_int hx hn, Option.some.injEq, Int.compare_eq_eq, Json.same]
  by_cases h : x = n <;> simp [h]

theorem equals_null (x : Int) : equals (some (.int x)) .null = false := by
  simp [equals, compareValues, compareNumbers, Json.asInt64?, Json.asFloat?, Json.same]

theorem ordered_int {x n : Int} (hx : Decimal.fitsInt64 x = true)
    (hn : Decimal.fitsInt64 n = true) (test : Ordering → Bool) :
    ordered (some (.int x)) (.int n) test = test (compare x n) := by
  simp only [ordered, Option.bind_some, compareValues_int hx hn]

theorem any_equals {x : Int} (hx : Decimal.fitsInt64 x = true) {values : List Value}
    (hv : values.all Value.isInt64 = true) :
    (Value.itemsToJson values).any (equals (some (.int x))) = values.any (Value.isInteger x) := by
  induction values with
  | nil => rfl
  | cons v rest ih =>
    simp only [List.all_cons, Bool.and_eq_true] at hv
    cases v with
    | integer n =>
      rw [Value.itemsToJson, List.any_cons, List.any_cons, ih hv.2, Value.toJson,
        equals_int hx hv.1]
      rfl
    | _ => simp [Value.isInt64] at hv

/-- A condition on a field that gives an answer, operator by operator and as a whole. -/
structure DecidesField (actual : Option Json) (condition : Json) (b : Bool) : Prop where
  nodup : (Keyed.keys (asOperators condition)).Nodup
  operators : ∀ o ∈ asOperators condition, ∃ a, testOperator actual o.1 o.2 = .ok a
  answer : fieldMatches actual condition = .ok b

theorem decidesField_operator {actual : Option Json} {name : String} {expected : Json} {b : Bool}
    (hname : isOperator name = true) (h : testOperator actual name expected = .ok b) :
    DecidesField actual (operator name expected) b := by
  have hops : asOperators (operator name expected) = [(name, expected)] :=
    asOperators_obj (by simp) (by simpa using hname)
  refine ⟨nodup_asOperators_operator name expected, ?_, ?_⟩
  · simp [hops, h]
  · rw [fieldMatches_eq, hops]
    cases b <;> simp [testOperators, h]

theorem decidesField_value {actual : Option Json} {condition : Json} {b : Bool}
    (hvalue : operators? condition = none) (h : equals actual condition = b) :
    DecidesField actual condition b := by
  refine ⟨?_, ?_, ?_⟩
  · simp [asOperators, hvalue, Keyed.keys]
  · simp [asOperators, hvalue, testOperator]
  · rw [fieldMatches, hvalue, h]

theorem decidesField_range {x low high : Int} (hx : Decimal.fitsInt64 x = true)
    (hlow : Decimal.fitsInt64 low = true) (hhigh : Decimal.fitsInt64 high = true) :
    DecidesField (some (.int x)) (.obj [("$gte", .int low), ("$lte", .int high)])
      (low ≤ x ∧ x ≤ high : Bool) := by
  have hops : asOperators (.obj [("$gte", .int low), ("$lte", .int high)])
      = [("$gte", .int low), ("$lte", .int high)] := by
    apply asOperators_obj (by simp)
    simp only [List.forall_mem_cons]
    decide
  have hge : testOperator (some (.int x)) "$gte" (.int low) = .ok (low ≤ x : Bool) := by
    simp [testOperator, ordered_int hx hlow, ← Int.compare_ne_lt]
  have hle : testOperator (some (.int x)) "$lte" (.int high) = .ok (x ≤ high : Bool) := by
    simp [testOperator, ordered_int hx hhigh, ← Int.compare_ne_gt]
  refine ⟨nodup_asOperators_range _ _, ?_, ?_⟩
  · rw [hops]
    simp only [List.forall_mem_cons]
    exact ⟨⟨_, hge⟩, ⟨_, hle⟩, by simp⟩
  · rw [fieldMatches_eq, hops]
    by_cases hl : low ≤ x <;> by_cases hh : x ≤ high <;> simp [testOperators, hge, hle, hl, hh]

/-- A condition on a field that holds an integer has the truth of its marker on the integer. -/
theorem decides_test {logic : Logic} {operand : Operand} {x : Int}
    (hx : Decimal.fitsInt64 x = true) (htakes : logic.takes operand = true) :
    ∃ c, clauseOf logic operand = .condition c
      ∧ DecidesField (some (.int x)) c (logic.accepts x operand) := by
  cases logic <;> cases operand <;>
    simp only [Logic.takes, Bool.and_eq_true, Bool.not_eq_true', Bool.false_eq_true] at htakes
  case eq.one v =>
    obtain ⟨n, rfl⟩ := Value.eq_integer htakes
    exact ⟨.int n, rfl, decidesField_value rfl (equals_int hx htakes)⟩
  case notEq.one v =>
    obtain ⟨n, rfl⟩ := Value.eq_integer htakes
    refine ⟨_, rfl, decidesField_operator (by decide) ?_⟩
    simp [testOperator, Value.toJson, equals_int hx htakes, Logic.accepts]
  case lt.one v =>
    obtain ⟨n, rfl⟩ := Value.eq_integer htakes
    refine ⟨_, rfl, decidesField_operator (by decide) ?_⟩
    simp [testOperator, Value.toJson, ordered_int hx htakes, Logic.accepts, Int.compare_eq_lt]
  case lte.one v =>
    obtain ⟨n, rfl⟩ := Value.eq_integer htakes
    refine ⟨_, rfl, decidesField_operator (by decide) ?_⟩
    simp [testOperator, Value.toJson, ordered_int hx htakes, Logic.accepts, ← Int.compare_ne_gt]
  case gt.one v =>
    obtain ⟨n, rfl⟩ := Value.eq_integer htakes
    refine ⟨_, rfl, decidesField_operator (by decide) ?_⟩
    simp [testOperator, Value.toJson, ordered_int hx htakes, Logic.accepts, Int.compare_eq_gt]
  case gte.one v =>
    obtain ⟨n, rfl⟩ := Value.eq_integer htakes
    refine ⟨_, rfl, decidesField_operator (by decide) ?_⟩
    simp [testOperator, Value.toJson, ordered_int hx htakes, Logic.accepts, ← Int.compare_ne_lt]
  case between.range low high =>
    obtain ⟨m, rfl⟩ := Value.eq_integer htakes.1
    obtain ⟨n, rfl⟩ := Value.eq_integer htakes.2
    exact ⟨_, rfl, decidesField_range hx htakes.1 htakes.2⟩
  case isIn.many values =>
    refine ⟨_, rfl, decidesField_operator (by decide) ?_⟩
    simp [testOperator, expectItems, Except.map, any_equals hx htakes.2, Logic.accepts]
  case notIn.many values =>
    refine ⟨_, rfl, decidesField_operator (by decide) ?_⟩
    simp [testOperator, expectItems, Except.map, any_equals hx htakes.2, Logic.accepts]
  all_goals first
    | exact ⟨.null, rfl, decidesField_value rfl (equals_null x)⟩
    | exact ⟨_, rfl, decidesField_operator (by decide) (by simp [testOperator, equals_null]; rfl)⟩

/-! ## Contributions of conditions -/

/-- A contribution of which a document gives an answer, and what the answer is. -/
structure Decides (doc : Json) (p : Contribution) (b : Bool) : Prop where
  proper : p.IsProper
  operators : ∀ key, ∀ o ∈ p.operatorsOn key, ∃ a, testOperator (doc.field? key) o.1 o.2 = .ok a
  disjunctions : ∀ d ∈ p.disjunctions, ∃ a, someOf doc d = .ok a
  answer : satisfies doc (p.addTo []) = .ok b

/-- A condition that can be compiled, and of whose contribution a document gives an answer. -/
def ConditionDecides (doc : Json) (idField : String) (value : String → Int) (c : Condition) :
    Prop :=
  filterOf [c] idField = .ok ((contribution idField c).addTo [])
    ∧ Decides doc (contribution idField c) (!c.contributes || c.meets value)
    ∧ ((contribution idField c).addTo [] = [] ↔ c.contributes = false)

/-- The filter of conditions, and the answer that a document gives. -/
def FilterDecides (doc : Json) (idField : String) (value : String → Int) (cs : List Condition) :
    Prop :=
  ∃ filter, filterOf cs idField = .ok filter ∧ filter.isEmpty = !Condition.anyContributes cs
    ∧ satisfies doc filter = .ok (Condition.allMeet value cs)

/-- The filters of the groups of a disjunction, and the answer that a document gives. -/
def MembersDecide (doc : Json) (idField : String) (value : String → Int)
    (members : List (List Condition)) : Prop :=
  ∃ branches, branchesOf idField members = .ok branches
    ∧ branches.isEmpty = !Condition.anyMemberContributes members
    ∧ someOf doc branches = .ok (Condition.someMeet value members)

theorem decides_field {doc : Json} {key : String} {condition : Json} {b : Bool}
    (hkey : isOperator key = false) (h : DecidesField (doc.field? key) condition b) :
    Decides doc (.field key condition) b where
  proper := ⟨hkey, h.nodup⟩
  operators := by
    intro k o ho
    by_cases heq : key = k
    · subst heq
      simp only [Contribution.operatorsOn, if_pos] at ho
      exact h.operators o ho
    · simp [Contribution.operatorsOn, heq] at ho
  disjunctions := by simp [Contribution.disjunctions]
  answer := by
    rw [addTo_nil, satisfies, if_neg (or_ne_of_isOperator hkey).symm,
      if_neg (and_ne_of_isOperator hkey).symm, h.answer]
    cases b <;> rfl

theorem conditionDecides_on {doc : Json} {idField key : String} {logic : Logic}
    {operand : Operand} {value : String → Int}
    (hfield : FieldHolds doc idField key (value key)) (htakes : logic.takes operand = true) :
    ConditionDecides doc idField value (.on logic key operand) := by
  obtain ⟨c, hclause, hdecides⟩ := decides_test hfield.fits htakes
  have hcontribution : contribution idField (.on logic key operand)
      = .field (documentKey idField key) c := by
    rw [contribution, hclause]
    rfl
  refine ⟨?_, ?_, ?_⟩
  · rw [hcontribution]
    simp only [filterOf, addConditions, addCondition, hclause, addClause, bind, Except.bind]
    rfl
  · rw [hcontribution]
    rw [← hfield.field] at hdecides
    exact decides_field (isOperator_documentKey hfield.notOperator idField) hdecides
  · rw [hcontribution, addTo_nil]
    simp [Condition.contributes]

theorem conditionDecides_group {doc : Json} {idField : String} {value : String → Int}
    {members : List (List Condition)} (h : MembersDecide doc idField value members)
    (key : String) (others : List Parts) :
    ConditionDecides doc idField value (.group .or key members others) := by
  obtain ⟨branches, hbranches, hempty, hanswer⟩ := h
  cases branches with
  | nil =>
    simp only [List.isEmpty_nil, Bool.true_eq, Bool.not_eq_true'] at hempty
    have hcontribution : contribution idField (.group .or key members others) = .nothing := by
      simp only [contribution, hbranches]
    refine ⟨?_, ?_, ?_⟩
    · rw [hcontribution]
      simp only [filterOf, addConditions, addCondition, hbranches, bind, Except.bind]
      rfl
    · rw [hcontribution]
      refine ⟨trivial, ?_, ?_, ?_⟩
      · simp [Contribution.operatorsOn]
      · simp [Contribution.disjunctions]
      · simp [Contribution.addTo, satisfies, Condition.contributes, hempty]
    · simp [hcontribution, Contribution.addTo, Condition.contributes, hempty]
  | cons branch branches =>
    simp only [List.isEmpty_cons, Bool.false_eq, Bool.not_eq_false'] at hempty
    have hcontribution : contribution idField (.group .or key members others)
        = .disjunction (branch :: branches) := by
      simp only [contribution, hbranches]
    refine ⟨?_, ?_, ?_⟩
    · rw [hcontribution]
      simp only [filterOf, addConditions, addCondition, hbranches, bind, Except.bind]
      rfl
    · rw [hcontribution]
      refine ⟨trivial, ?_, ?_, ?_⟩
      · simp [Contribution.operatorsOn]
      · simp [Contribution.disjunctions, hanswer]
      · rw [addTo_nil, satisfies, if_pos rfl, someBranch, hanswer, Condition.contributes, hempty,
          Condition.meets]
        cases Condition.someMeet value members <;> rfl
    · simp [hcontribution, addTo_nil, Condition.contributes, hempty]

/-! ## Filters of conditions -/

theorem operatorsOn_contribution {idField key name : String} {c : Condition}
    (h : name ∈ Keyed.keys ((contribution idField c).operatorsOn key)) :
    documentKey idField c.key = key ∧ c.isDisjunction = false := by
  have hfield : ∀ clause : Clause, ∀ k,
      name ∈ Keyed.keys ((clause.contribution k).operatorsOn key) → k = key := by
    intro clause k hname
    cases clause with
    | condition c =>
      by_cases heq : k = key
      · exact heq
      · simp [Clause.contribution, Contribution.operatorsOn, heq, Keyed.keys] at hname
    | _ => simp [Clause.contribution, Contribution.operatorsOn, Keyed.keys] at hname
  cases c with
  | on logic k operand => exact ⟨hfield _ _ h, rfl⟩
  | group logic k members =>
    cases logic with
    | or =>
      rw [contribution] at h
      split at h <;> simp [Contribution.operatorsOn, Keyed.keys] at h
    | _ =>
      simp only [contribution] at h
      exact ⟨hfield _ _ h, rfl⟩

theorem documentKey_injective {idField k l : String} (hk : k ≠ idKey) (hl : l ≠ idKey)
    (h : documentKey idField k = documentKey idField l) : k = l := by
  unfold documentKey at h
  by_cases hki : k = idField <;> by_cases hli : l = idField <;> simp_all

theorem mem_fieldKeys {isField : String → Prop} {conditions : List Condition} {c : Condition}
    (h : Condition.AllCompare isField conditions) (hc : c ∈ conditions)
    (hfield : c.isDisjunction = false) :
    c.key ∈ Condition.fieldKeys conditions ∧ isField c.key := by
  induction conditions with
  | nil => simp at hc
  | cons d rest ih =>
    rw [Condition.AllCompare] at h
    rcases List.mem_cons.mp hc with rfl | hc
    · cases c with
      | on logic key operand => exact ⟨by simp [Condition.fieldKeys, Condition.key], h.1.1⟩
      | group logic key members =>
        cases logic with
        | or => simp [Condition.isDisjunction] at hfield
        | _ => exact absurd h.1 (by simp [Condition.Compares])
    · obtain ⟨hmem, hkey⟩ := ih h.2.2 hc
      refine ⟨?_, hkey⟩
      cases d <;> simp [Condition.fieldKeys, hmem]

/-- Conditions that name no field twice share no operator. -/
theorem not_sharesOperator {idField : String} {isField : String → Prop}
    (hid : ∀ key, isField key → key ≠ idKey) {conditions : List Condition}
    (h : Condition.AllCompare isField conditions) (hcompile : AllCompile idField conditions) :
    conditions.Pairwise fun c d => ¬ SharesOperator idField c d := by
  induction conditions with
  | nil => exact .nil
  | cons c rest ih =>
    have hall := h
    rw [Condition.AllCompare] at h
    obtain ⟨hc, hrest⟩ := List.forall_mem_cons.mp hcompile
    refine .cons (fun d hd => ?_) (ih h.2.2 hrest)
    rintro ⟨key, name, hputsc, hputsd⟩
    obtain ⟨hkeyc, hfieldc⟩ := operatorsOn_contribution ((puts_eq_true hc).mp hputsc).2
    obtain ⟨hkeyd, hfieldd⟩ := operatorsOn_contribution ((puts_eq_true (hrest d hd)).mp hputsd).2
    obtain ⟨-, hisc⟩ := mem_fieldKeys hall List.mem_cons_self hfieldc
    obtain ⟨hmemd, hisd⟩ := mem_fieldKeys h.2.2 hd hfieldd
    have heq := documentKey_injective (hid _ hisc) (hid _ hisd) (hkeyc.trans hkeyd.symm)
    have hnodup := hall.nodup
    cases c with
    | on logic k operand =>
      rw [Condition.fieldKeys, List.nodup_cons] at hnodup
      rw [← heq] at hmemd
      exact hnodup.1 hmemd
    | group logic k members =>
      cases logic with
      | or => simp [Condition.isDisjunction] at hfieldc
      | _ => exact absurd h.1 (by simp [Condition.Compares])

theorem allMeet_eq_true {value : String → Int} (conditions : List Condition) :
    Condition.allMeet value conditions = true
      ↔ ∀ c ∈ conditions, (!c.contributes || c.meets value) = true := by
  induction conditions with
  | nil => simp [Condition.allMeet]
  | cons c rest ih => rw [Condition.allMeet, Bool.and_eq_true, ih, List.forall_mem_cons]

theorem anyContributes_eq_false (conditions : List Condition) :
    Condition.anyContributes conditions = false ↔ ∀ c ∈ conditions, c.contributes = false := by
  induction conditions with
  | nil => simp [Condition.anyContributes]
  | cons c rest ih => rw [Condition.anyContributes, Bool.or_eq_false_iff, ih, List.forall_mem_cons]

theorem addDisjunction_ne_nil (filter : Fields) (branches : List Json) :
    addDisjunction filter branches ≠ [] := by
  unfold addDisjunction
  split
  · exact Keyed.put_ne_nil _ _ _
  · split <;> exact Keyed.put_ne_nil _ _ _

theorem addTo_eq_nil {p : Contribution} {filter : Fields} :
    p.addTo filter = [] ↔ p.addTo [] = [] ∧ filter = [] := by
  cases p with
  | field key condition =>
    have hne : ∀ f, mergeClause f key condition ≠ [] := fun f => Keyed.put_ne_nil _ _ _
    simp [Contribution.addTo, hne]
  | disjunction branches => simp [Contribution.addTo, addDisjunction_ne_nil]
  | nothing => simp [Contribution.addTo]

theorem addAll_eq_nil {idField : String} {conditions : List Condition} {filter : Fields} :
    addAll idField filter conditions = []
      ↔ filter = [] ∧ ∀ c ∈ conditions, (contribution idField c).addTo [] = [] := by
  induction conditions generalizing filter with
  | nil => simp [addAll]
  | cons c rest ih =>
    have hrun : addAll idField filter (c :: rest)
        = addAll idField ((contribution idField c).addTo filter) rest := rfl
    rw [hrun, ih, addTo_eq_nil, List.forall_mem_cons]
    tauto

/-- A filter of conditions gives the answer of all of them. -/
theorem filterDecides {doc : Json} {idField : String} {value : String → Int}
    {isField : String → Prop} (hid : ∀ key, isField key → key ≠ idKey)
    {conditions : List Condition} (hcompare : Condition.AllCompare isField conditions)
    (h : ∀ c ∈ conditions, ConditionDecides doc idField value c) :
    FilterDecides doc idField value conditions := by
  have hcompile : AllCompile idField conditions := fun c hc => (h c hc).1
  have hp : AllProper idField conditions := fun c hc => (h c hc).2.1.proper
  have hshape := isFilter_addAll hp isFilter_nil
  rw [List.nil_append] at hshape
  refine ⟨addAll idField [] conditions, hcompile.filterOf, ?_, ?_⟩
  · rw [Bool.eq_iff_iff, List.isEmpty_iff, addAll_eq_nil, Bool.not_eq_true',
      anyContributes_eq_false]
    simp only [true_and]
    exact forall_congr' fun c => forall_congr' fun hc => (h c hc).2.2
  · have htotal : ∃ b, satisfies doc (addAll idField [] conditions) = .ok b := by
      apply hshape.satisfies_ok
      · intro key hkey o ho
        rw [mem_operatorsOf_addAll hp isFilter_nil hkey] at ho
        rcases ho with ⟨ho, -⟩ | ⟨before, c, after, rfl, ho, -⟩
        · simp [operatorsOf, Keyed.get?] at ho
        · exact (h c (by simp)).2.1.operators key o ho
      · intro d hd
        obtain ⟨c, hc, hdc⟩ := List.mem_flatMap.mp hd
        exact (h c hc).2.1.disjunctions d hdc
    obtain ⟨b, hb⟩ := htotal
    have hall := selects_iff_forall hcompile hp (not_sharesOperator hid hcompare hcompile) doc
    rw [selects_iff hcompile.filterOf, hb, Except.ok.injEq] at hall
    have hmeet : b = true ↔ Condition.allMeet value conditions = true := by
      rw [hall, allMeet_eq_true]
      refine forall_congr' fun c => forall_congr' fun hc => ?_
      rw [selects_iff (h c hc).1, (h c hc).2.1.answer, Except.ok.injEq]
    rw [hb, Bool.eq_iff_iff.mpr hmeet]

theorem MembersDecide.cons {doc : Json} {idField : String} {value : String → Int}
    {member : List Condition} {members : List (List Condition)}
    (hm : FilterDecides doc idField value member)
    (hms : MembersDecide doc idField value members) :
    MembersDecide doc idField value (member :: members) := by
  obtain ⟨branch, hbranch, hempty, hanswer⟩ := hm
  obtain ⟨branches, hbranches, hempties, hanswers⟩ := hms
  rw [filterOf] at hbranch
  refine ⟨if branch.isEmpty then branches else .obj branch :: branches,
    by simp only [branchesOf, hbranch, hbranches, bind, Except.bind], ?_, ?_⟩
  · rw [Condition.anyMemberContributes]
    cases branch with
    | nil =>
      simp only [List.isEmpty_nil, Bool.true_eq, Bool.not_eq_true'] at hempty
      simp [hempty, hempties]
    | cons e branch =>
      simp only [List.isEmpty_cons, Bool.false_eq, Bool.not_eq_false'] at hempty
      simp [hempty]
  · rw [Condition.someMeet]
    cases branch with
    | nil =>
      simp only [List.isEmpty_nil, Bool.true_eq, Bool.not_eq_true'] at hempty
      simpa [hempty] using hanswers
    | cons e branch =>
      simp only [List.isEmpty_cons, Bool.false_eq, Bool.not_eq_false'] at hempty
      simp only [List.isEmpty_cons, Bool.false_eq_true, if_false, someOf, satisfiesBranch, hanswer,
        hempty, Bool.true_and]
      cases Condition.allMeet value member with
      | true => rfl
      | false => exact hanswers

mutual

theorem conditionDecides {doc : Json} {idField : String} {value : String → Int}
    {isField : String → Prop} (hdoc : ∀ key, isField key → FieldHolds doc idField key (value key)) :
    ∀ c : Condition, c.Compares isField → ConditionDecides doc idField value c
  | .on logic key operand, h => conditionDecides_on (hdoc key h.1) h.2
  | .group logic key members others, h => by
    cases logic with
    | or => exact conditionDecides_group (membersDecide hdoc members h) key others
    | _ => exact absurd h (by simp [Condition.Compares])

theorem conditionsDecide {doc : Json} {idField : String} {value : String → Int}
    {isField : String → Prop} (hdoc : ∀ key, isField key → FieldHolds doc idField key (value key)) :
    ∀ cs : List Condition, Condition.AllCompare isField cs →
      ∀ c ∈ cs, ConditionDecides doc idField value c
  | [], _ => by simp
  | c :: rest, h =>
    List.forall_mem_cons.mpr ⟨conditionDecides hdoc c h.1, conditionsDecide hdoc rest h.2.2⟩

theorem membersDecide {doc : Json} {idField : String} {value : String → Int}
    {isField : String → Prop} (hdoc : ∀ key, isField key → FieldHolds doc idField key (value key)) :
    ∀ members : List (List Condition), Condition.MembersCompare isField members →
      MembersDecide doc idField value members
  | [], _ => ⟨[], rfl, rfl, rfl⟩
  | member :: rest, h => by
    have hid : ∀ key, isField key → key ≠ idKey := fun key hkey => (hdoc key hkey).notIdKey
    exact .cons (filterDecides hid h.1 (conditionsDecide hdoc member h.1))
      (membersDecide hdoc rest h.2)

end

/-- The filter of integer conditions gives the truth of the conditions on the integers in the
document. -/
theorem filterOf_decides {doc : Json} {idField : String} {value : String → Int}
    {isField : String → Prop} (hdoc : ∀ key, isField key → FieldHolds doc idField key (value key))
    {conditions : List Condition} (h : Condition.AllCompare isField conditions) :
    FilterDecides doc idField value conditions :=
  filterDecides (fun key hkey => (hdoc key hkey).notIdKey) h (conditionsDecide hdoc conditions h)

end DualStore.Document
