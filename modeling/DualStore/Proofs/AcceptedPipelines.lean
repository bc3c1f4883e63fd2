import DualStore.Document.Store
import DualStore.Proofs.Conjunction
import DualStore.Proofs.PipelineRuns

/-!
# Compiled pipelines are accepted

The stages and the filters that a criteria is compiled to are data: a stage may be malformed, an
operator unknown, a list missing. What the compiler makes of a criteria that was put together by
the builder functions is never refused when it is run.

* `Criteria.Built`: criteria that the builder functions make;
* `Condition.IsPlain`: conditions in which nothing that names an operator stands for data;
* `Accepted`, `Contribution.Answers`: operators and contributions that always give an answer;
* `contribution_answers`: what a plain condition contributes;
* `IsGroupSpec`, `Overflows`, `AlwaysRuns`: groupings and stages that stop at nothing but a sum;
* `pipeline_accepted`: the main statement.
-/

namespace DualStore

/-! ## Criteria as they are built -/

/-- A criteria that is put together by the builder functions. -/
inductive Criteria.Built : Criteria → Prop
  | empty : Built {}
  | of (model : Model.EntityType) : Built (.of model)
  | compare {c : Criteria} (h : Built c) (logic : Logic) (key : String) (value : Value) :
    Built (c.compare logic key value)
  | nullness {c : Criteria} (h : Built c) (logic : Logic) (key : String) :
    Built (c.nullness logic key)
  | within {c : Criteria} (h : Built c) (logic : Logic) (key : String) (low high : Value) :
    Built (c.within logic key low high)
  | member {c : Criteria} (h : Built c) (logic : Logic) (key : String) (values : List Value) :
    Built (c.member logic key values)
  | anyOf {c : Criteria} (h : Built c) {members : List Criteria} (hs : ∀ d ∈ members, Built d) :
    Built (c.anyOf members)
  | source {c : Criteria} (h : Built c) (table shortName : String) :
    Built (c.source table shortName)
  | join {c : Criteria} (h : Built c) (kind : Logic) (table shortName condition : String) :
    Built (c.join kind table shortName condition)
  | limit {c : Criteria} (h : Built c) (number size : Int) : Built (c.limit number size)
  | offset {c : Criteria} (h : Built c) (offset limit : Int) : Built (c.offset offset limit)
  | distinct {c : Criteria} (h : Built c) (keys : List String) : Built (c.distinct keys)
  | groupBy {c : Criteria} (h : Built c) (keys : List String) : Built (c.groupBy keys)
  | select {c : Criteria} (h : Built c) (keys : List String) : Built (c.select keys)
  | orderBy {c : Criteria} (h : Built c) (key : String) (logic : Logic) :
    Built (c.orderBy key logic)
  | aggregate {c : Criteria} (h : Built c) (logic : Logic) (key : String) :
    Built (c.aggregate logic key)
  | cached {c : Criteria} (h : Built c) (directive : CacheDirective) : Built (c.cached directive)
  | assign {c : Criteria} (h : Built c) (keys : List String) (values : List Value) :
    Built (c.assign keys values)

/-- Whether a page has neither a negative size nor a negative number of rows in front of it. -/
def Page.IsWindow (p : Page) : Prop := 0 ≤ p.skip ∧ 0 ≤ p.size

theorem Page.isWindow_byNumber (number size : Int) : (byNumber number size).IsWindow := by
  have hsize : 0 ≤ clampSize size := Int.le_trans (by decide) (clampSize_range size).1
  have hrows : ∀ n : Int, 0 ≤ n → 0 ≤ Decimal.clampInt64 n := by
    intro n hn
    unfold Decimal.clampInt64 Decimal.int64Min Decimal.int64Max
    split
    · omega
    · split <;> omega
  exact ⟨hrows _ (Int.mul_nonneg (Int.le_max_right _ _) hsize), hsize⟩

theorem Page.isWindow_byOffset (offset limit : Int) : (byOffset offset limit).IsWindow :=
  ⟨Int.le_max_right _ _, Int.le_trans (by decide) (clampSize_range limit).1⟩

/-- Whatever the arguments, the builder functions only give windows. -/
theorem Criteria.Built.isWindow {c : Criteria} (h : c.Built) : c.page.IsWindow := by
  induction h with
  | empty => exact ⟨Int.le_refl 0, Int.le_refl 0⟩
  | of model => exact ⟨Int.le_refl 0, Int.le_refl 0⟩
  | limit _ number size => exact Page.isWindow_byNumber number size
  | offset _ offset limit => exact Page.isWindow_byOffset offset limit
  | join h kind table shortName condition ih =>
    unfold Criteria.join
    split <;> exact ih
  | assign h keys values ih =>
    unfold Criteria.assign
    split <;> exact ih
  | _ => assumption

/-! ## Plain conditions -/

/-- Whether a value is not a map in which every key names an operator. -/
def Value.IsPlain : Value → Prop
  | .map entries => entries = [] ∨ ∃ e ∈ entries, Document.isOperator e.1 = false
  | _ => True

mutual

/-- Whether in a condition no key names an operator and no map to be equal to consists of
operators. -/
def Condition.IsPlain : Condition → Prop
  | .on .eq key (.one v) => Document.isOperator key = false ∧ v.IsPlain
  | .on _ key _ => Document.isOperator key = false
  | .group .or _ members _ => MembersPlain members
  | .group _ key _ _ => Document.isOperator key = false

def AllPlain : List Condition → Prop
  | [] => True
  | c :: rest => c.IsPlain ∧ AllPlain rest

/-- Whether the conditions of all groups are plain. -/
def MembersPlain : List (List Condition) → Prop
  | [] => True
  | member :: rest => AllPlain member ∧ MembersPlain rest

end

theorem Condition.IsPlain.key {logic : Logic} {key : String} {operand : Operand}
    (h : (Condition.on logic key operand).IsPlain) : Document.isOperator key = false := by
  cases logic <;> cases operand <;> rw [Condition.IsPlain] at h <;> simp_all

theorem Condition.IsPlain.value {key : String} {v : Value}
    (h : (Condition.on .eq key (.one v)).IsPlain) : v.IsPlain := by
  rw [Condition.IsPlain] at h
  exact h.2

end DualStore

namespace DualStore.Document

/-! ## Operators -/

/-- An operator that answers whatever the field holds. -/
def Accepted (o : String × Json) : Prop := ∀ actual, ∃ b, testOperator actual o.1 o.2 = .ok b

/-- The operators that compare a field with one value. -/
def valueOperators : List String := ["$eq", "$ne", "$lt", "$lte", "$gt", "$gte", "$regex"]

theorem accepted_value {name : String} (h : name ∈ valueOperators) (expected : Json) :
    Accepted (name, expected) := by
  simp only [valueOperators, List.mem_cons, List.not_mem_nil, or_false] at h
  intro actual
  rcases h with rfl | rfl | rfl | rfl | rfl | rfl | rfl <;> exact ⟨_, rfl⟩

theorem accepted_items {name : String} (h : name = "$in" ∨ name = "$nin") (items : List Json) :
    Accepted (name, .arr items) := by
  intro actual
  rcases h with rfl | rfl <;> exact ⟨_, rfl⟩

/-- A condition on a field whose operators are all accepted and stand once. -/
structure AcceptedCondition (condition : Json) : Prop where
  once : (Keyed.keys (asOperators condition)).Nodup
  accepted : ∀ o ∈ asOperators condition, Accepted o

theorem acceptedCondition_of_eq {condition : Json} {operators : Fields}
    (h : asOperators condition = operators) (once : (Keyed.keys operators).Nodup)
    (accepted : ∀ o ∈ operators, Accepted o) : AcceptedCondition condition where
  once := by rwa [h]
  accepted := by rwa [h]

theorem acceptedCondition_operator {name : String} (hname : isOperator name = true) {value : Json}
    (h : Accepted (name, value)) : AcceptedCondition (operator name value) :=
  acceptedCondition_of_eq (asOperators_obj (by simp) (by simpa using hname))
    (by simp [Keyed.keys]) (by simpa using h)

theorem acceptedCondition_value {condition : Json} (h : operators? condition = none) :
    AcceptedCondition condition := by
  have hops : asOperators condition = [("$eq", condition)] := by rw [asOperators, h]
  exact acceptedCondition_of_eq hops (by simp [Keyed.keys])
    (by simpa using accepted_value (by decide) condition)

theorem acceptedCondition_range (low high : Json) :
    AcceptedCondition (.obj [("$gte", low), ("$lte", high)]) := by
  have hmarked : ∀ o ∈ [("$gte", low), ("$lte", high)], isOperator o.1 = true := by
    simp only [List.forall_mem_cons]
    exact ⟨by decide, by decide, by simp⟩
  refine acceptedCondition_of_eq (asOperators_obj (by simp) hmarked) (by simp [Keyed.keys]) ?_
  simp only [List.forall_mem_cons]
  exact ⟨accepted_value (by decide) low, accepted_value (by decide) high, by simp⟩

/-- A plain value is compared as it is. -/
theorem operators?_toJson {v : Value} (h : v.IsPlain) : operators? v.toJson = none := by
  cases v with
  | map entries =>
    rcases h with rfl | ⟨e, he, hplain⟩
    · rfl
    · cases hops : operators? (Value.map entries).toJson with
      | none => rfl
      | some operators =>
        obtain ⟨heq, -, hmarked⟩ := operators?_eq_some hops
        rw [Value.toJson, Json.obj.injEq] at heq
        have hkey : e.1 ∈ Keyed.keys operators := by
          rw [← heq, keys_entriesToJson]
          exact Keyed.mem_keys he
        obtain ⟨o, ho, hoe⟩ := List.mem_map.mp hkey
        rw [← hoe, hmarked o ho] at hplain
        exact absurd hplain (by simp)
  | real x =>
    rw [Value.toJson, Json.ofFloat]
    split <;> rfl
  | _ => rfl

/-- The condition that a plain condition puts on a field is accepted. -/
theorem acceptedCondition_clauseOf {logic : Logic} {key : String} {operand : Operand} {c : Json}
    (hplain : (Condition.on logic key operand).IsPlain)
    (h : clauseOf logic operand = .condition c) : AcceptedCondition c := by
  cases logic <;> cases operand <;>
    simp only [clauseOf, Clause.condition.injEq, reduceCtorEq] at h <;> subst h <;>
    first
    | exact acceptedCondition_operator (by decide) (accepted_value (by decide) _)
    | exact acceptedCondition_operator (by decide) (accepted_items (by decide) _)
    | exact acceptedCondition_value rfl
    | exact acceptedCondition_range _ _
    | exact acceptedCondition_value (operators?_toJson hplain.value)

theorem acceptedCondition_groupClause {logic : Logic} {c : Json}
    (h : groupClause logic = .condition c) : AcceptedCondition c := by
  cases logic <;> simp only [groupClause, Clause.condition.injEq, reduceCtorEq] at h <;> subst h <;>
    first
    | exact acceptedCondition_operator (by decide) (accepted_value (by decide) _)
    | exact acceptedCondition_value rfl

/-! ## Filters -/

namespace Contribution

/-- Whether a contribution to a filter always gives an answer. -/
def Answers : Contribution → Prop
  | .field key condition => isOperator key = false ∧ AcceptedCondition condition
  | .disjunction branches => ∀ doc, ∃ b, someOf doc branches = .ok b
  | .nothing => True

theorem Answers.isProper {p : Contribution} (h : p.Answers) : p.IsProper := by
  cases p with
  | field key condition => exact ⟨h.1, h.2.once⟩
  | _ => trivial

theorem Answers.accepted {p : Contribution} (h : p.Answers) {key : String} {o : String × Json}
    (ho : o ∈ p.operatorsOn key) : Accepted o := by
  cases p with
  | field k condition =>
    by_cases heq : k = key
    · rw [operatorsOn, if_pos heq] at ho
      exact h.2.accepted o ho
    · simp [operatorsOn, heq] at ho
  | _ => simp [operatorsOn] at ho

theorem Answers.disjunction {p : Contribution} (h : p.Answers) {d : List Json}
    (hd : d ∈ p.disjunctions) (doc : Json) : ∃ b, someOf doc d = .ok b := by
  cases p with
  | disjunction branches =>
    rw [disjunctions, List.mem_singleton] at hd
    subst hd
    exact h doc
  | _ => simp [disjunctions] at hd

end Contribution

theorem answers_of_clause {clause : Clause} {key : String} (hkey : isOperator key = false)
    (h : ∀ c, clause = .condition c → AcceptedCondition c) :
    (clause.contribution key).Answers := by
  cases clause with
  | condition c => exact ⟨hkey, h c rfl⟩
  | _ => trivial

/-- Every operator of a filter was put there by one condition, so the filter answers if each
condition does. -/
theorem addAll_answers {idField : String} {conditions : List Condition}
    (h : ∀ c ∈ conditions, (contribution idField c).Answers) (doc : Json) :
    ∃ b, satisfies doc (addAll idField [] conditions) = .ok b := by
  have hp : AllProper idField conditions := fun c hc => (h c hc).isProper
  apply (isFilter_addAll hp isFilter_nil).satisfies_ok
  · intro key hkey o ho
    rw [mem_operatorsOf_addAll hp isFilter_nil hkey] at ho
    rcases ho with ⟨ho, -⟩ | ⟨before, c, after, rfl, ho, -⟩
    · simp [operatorsOf, Keyed.get?] at ho
    · exact (h c (by simp)).accepted ho _
  · intro d hd
    rw [List.nil_append] at hd
    obtain ⟨c, hc, hdc⟩ := List.mem_flatMap.mp hd
    exact (h c hc).disjunction hdc doc

/-- A further branch that answers keeps a disjunction answering. -/
theorem someOf_cons_answers {doc : Json} {branch : Fields} {others : List Json}
    (hbranch : ∃ b, satisfies doc branch = .ok b) (hothers : ∃ b, someOf doc others = .ok b) :
    ∃ b, someOf doc (.obj branch :: others) = .ok b := by
  obtain ⟨b, hb⟩ := hbranch
  rw [someOf, satisfiesBranch, hb]
  cases b with
  | true => exact ⟨true, rfl⟩
  | false => exact hothers

mutual

/-- What a plain condition contributes always gives an answer. -/
theorem contribution_answers (idField : String) (c : Condition) (h : c.IsPlain) :
    (contribution idField c).Answers := by
  match c with
  | .on logic key operand =>
    exact answers_of_clause (isOperator_documentKey h.key idField)
      fun condition hc => acceptedCondition_clauseOf h hc
  | .group logic key members _ =>
    cases logic with
    | or =>
      rw [Condition.IsPlain] at h
      rw [contribution]
      split
      · next branch branches hb => exact branches_answer idField members h hb
      · trivial
    | _ =>
      simp only [Condition.IsPlain] at h
      simp only [contribution]
      exact answers_of_clause (isOperator_documentKey h idField)
        fun condition hc => acceptedCondition_groupClause hc

theorem contributions_answer (idField : String) (conditions : List Condition)
    (h : AllPlain conditions) : ∀ c ∈ conditions, (contribution idField c).Answers := by
  match conditions with
  | [] => simp
  | c :: rest =>
    rw [AllPlain] at h
    exact List.forall_mem_cons.mpr
      ⟨contribution_answers idField c h.1, contributions_answer idField rest h.2⟩

theorem branches_answer (idField : String) (members : List (List Condition))
    (h : MembersPlain members) {branches : List Json}
    (hb : branchesOf idField members = .ok branches) (doc : Json) :
    ∃ b, someOf doc branches = .ok b := by
  match members with
  | [] =>
    simp only [branchesOf, Except.ok.injEq] at hb
    subst hb
    exact ⟨false, by rw [someOf]⟩
  | member :: rest =>
    rw [MembersPlain] at h
    cases hmember : addConditions idField [] member with
    | error e => simp [branchesOf, hmember, bind, Except.bind] at hb
    | ok branch =>
      cases hrest : branchesOf idField rest with
      | error e => simp [branchesOf, hmember, hrest, bind, Except.bind] at hb
      | ok others =>
        simp only [branchesOf, hmember, hrest, bind, Except.bind, Except.ok.injEq] at hb
        have hothers := branches_answer idField rest h.2 hrest doc
        have hbranch : ∃ b, satisfies doc branch = .ok b := by
          rw [(addConditions_ok hmember).1]
          exact addAll_answers (contributions_answer idField member h.1) doc
        subst hb
        split
        · exact hothers
        · exact someOf_cons_answers hbranch hothers

end

/-- The filter of plain conditions answers for every document. -/
theorem filterOf_answers {idField : String} {conditions : List Condition} {filter : Fields}
    (plain : AllPlain conditions) (h : filterOf conditions idField = .ok filter) (doc : Json) :
    ∃ b, satisfies doc filter = .ok b := by
  rw [(addConditions_ok h).1]
  exact addAll_answers (contributions_answer idField conditions plain) doc

/-! ## Groupings -/

/-- The accumulators of aggregates. -/
def accumulators : List String := ["$sum", "$max", "$min", "$avg"]

theorem accumulator?_mem {logic : Logic} {name : String} (h : accumulator? logic = some name) :
    name ∈ accumulators := by
  cases logic <;> simp only [accumulator?, reduceCtorEq, Option.some.injEq] at h <;> subst h <;>
    decide

theorem sum_of_accumulator? {logic : Logic} (h : accumulator? logic = some "$sum") :
    logic = .sum := by
  cases logic <;> simp [accumulator?] at h ⊢

/-- Integers that are added one by one are stopped by the range only. -/
theorem addInts_ok_or (acc : Int) (ns : List Int) :
    (∃ total, addInts acc ns = .ok total) ∨ addInts acc ns = .error .sumOverflow := by
  induction ns generalizing acc with
  | nil => exact .inl ⟨acc, rfl⟩
  | cons n rest ih =>
    rw [addInts]
    split
    · exact ih _
    · exact .inr rfl

theorem sum_ok_or (values : List Json) :
    (∃ v, sum values = .ok v) ∨ sum values = .error .sumOverflow := by
  rw [sum]
  split
  · rcases addInts_ok_or 0 ((values.filter isNumber).filterMap Json.asInt64?) with ⟨total, h⟩ | h
    · exact .inl ⟨.int total, by rw [h]; rfl⟩
    · exact .inr (by rw [h]; rfl)
  · exact .inl ⟨_, rfl⟩

/-- A known accumulator makes something of all members, except that a sum may leave the range. -/
theorem accumulate_ok_or {name : String} (h : name ∈ accumulators) (argument : Json)
    (members : List Json) :
    (∃ v, accumulate name argument members = .ok v)
      ∨ name = "$sum" ∧ sum (accumulated argument members) = .error .sumOverflow := by
  simp only [accumulators, List.mem_cons, List.not_mem_nil, or_false] at h
  rcases h with rfl | rfl | rfl | rfl
  · exact (sum_ok_or (accumulated argument members)).imp_right fun h => ⟨rfl, h⟩
  all_goals exact .inl ⟨_, rfl⟩

/-- What a grouping asks for: a key, and in every other field one known accumulator. -/
structure IsGroupSpec (spec : Fields) : Prop where
  keys : (Keyed.keys spec).Nodup
  grouped : idKey ∈ Keyed.keys spec
  accumulates : ∀ e ∈ spec, e.1 ≠ idKey →
    ∃ name ∈ accumulators, ∃ argument, e.2 = operator name argument

theorem IsGroupSpec.put {spec : Fields} (h : IsGroupSpec spec) (field : String) {name : String}
    (hname : name ∈ accumulators) (argument : Json) :
    IsGroupSpec (Keyed.put field (operator name argument) spec) where
  keys := Keyed.nodup_put h.keys _ _
  grouped := (Keyed.mem_keys_put _ _ _ _).mpr (.inr h.grouped)
  accumulates := by
    intro e he hne
    rcases (Keyed.mem_put h.keys _ _ e).mp he with rfl | ⟨he, -⟩
    · exact ⟨name, hname, argument, rfl⟩
    · exact h.accumulates e he hne

theorem isGroupSpec_aggregateFields (idField : String) {spec : Fields} (h : IsGroupSpec spec)
    (aggregates : List Directive) : IsGroupSpec (aggregateFields idField spec aggregates) := by
  induction aggregates generalizing spec with
  | nil => exact h
  | cons d rest ih =>
    rw [aggregateFields]
    cases hname : accumulator? d.logic with
    | none => exact ih h
    | some name => exact ih (h.put _ (accumulator?_mem hname) _)

theorem sum_of_aggregateFields (idField : String) {spec : Fields} (hspec : (Keyed.keys spec).Nodup)
    {aggregates : List Directive} {field : String} {argument : Json}
    (h : (field, operator "$sum" argument) ∈ aggregateFields idField spec aggregates) :
    (field, operator "$sum" argument) ∈ spec ∨ ∃ d ∈ aggregates, d.logic = .sum := by
  induction aggregates generalizing spec with
  | nil => exact .inl h
  | cons d rest ih =>
    have hmore : (∃ d ∈ rest, d.logic = .sum) → ∃ e ∈ d :: rest, e.logic = .sum :=
      fun ⟨e, he, hsum⟩ => ⟨e, List.mem_cons_of_mem _ he, hsum⟩
    rw [aggregateFields] at h
    cases hname : accumulator? d.logic with
    | none =>
      simp only [hname] at h
      exact (ih hspec h).imp_right hmore
    | some name =>
      simp only [hname] at h
      rcases ih (Keyed.nodup_put hspec _ _) h with h | h
      · rcases (Keyed.mem_put hspec _ _ _).mp h with h | ⟨h, -⟩
        · simp only [operator, Prod.mk.injEq, Json.obj.injEq, List.cons.injEq] at h
          obtain ⟨-, ⟨rfl, -⟩, -⟩ := h
          exact .inr ⟨d, List.mem_cons_self, sum_of_accumulator? hname⟩
        · exact .inl h
      · exact .inr (hmore h)

/-- Whether a sum that a grouping asks for leaves the range of 64 bits over some members. -/
def Overflows (spec : Fields) (members : List Json) : Prop :=
  ∃ e ∈ spec, e.1 ≠ idKey ∧ ∃ argument, e.2 = operator "$sum" argument
    ∧ sum (accumulated argument members) = .error .sumOverflow

/-- The fields of a row are accumulated exactly if no sum leaves the range. -/
theorem accumulateFields_ok_or (members : List Json) {spec : Fields}
    (h : ∀ e ∈ spec, e.1 ≠ idKey →
      ∃ name ∈ accumulators, ∃ argument, e.2 = operator name argument) (row : Fields) :
    (¬Overflows spec members ∧ ∃ out, accumulateFields members row spec = .ok out)
      ∨ Overflows spec members ∧ accumulateFields members row spec = .error .sumOverflow := by
  induction spec generalizing row with
  | nil => exact .inl ⟨by simp [Overflows], row, rfl⟩
  | cons e rest ih =>
    obtain ⟨field, accumulator⟩ := e
    obtain ⟨he, hrest⟩ := List.forall_mem_cons.mp h
    by_cases hfield : field = idKey
    · have hsame : Overflows ((field, accumulator) :: rest) members ↔ Overflows rest members := by
        simp [Overflows, hfield]
      rw [accumulateFields, if_pos hfield, hsame]
      exact ih hrest row
    · obtain ⟨name, hname, argument, rfl⟩ := he hfield
      rcases accumulate_ok_or hname argument members with ⟨v, hv⟩ | ⟨rfl, hv⟩
      · have hsame : Overflows ((field, operator name argument) :: rest) members
            ↔ Overflows rest members := by
          refine ⟨?_, fun ⟨e, he, hover⟩ => ⟨e, List.mem_cons_of_mem _ he, hover⟩⟩
          rintro ⟨e, he, hne, asked, hasked, hover⟩
          rcases List.mem_cons.mp he with rfl | he
          · -- This accumulator has made something, so it is no sum that leaves the range.
            cases hasked
            rw [accumulate, if_pos rfl, hover] at hv
            cases hv
          · exact ⟨e, he, hne, asked, hasked, hover⟩
        rw [hsame]
        simp only [accumulateFields, if_neg hfield, operator, singleEntry, hv]
        exact ih hrest _
      · refine .inr ⟨⟨_, List.mem_cons_self, hfield, argument, rfl, hv⟩, ?_⟩
        have hmade : accumulate "$sum" argument members = .error .sumOverflow := hv
        simp only [accumulateFields, if_neg hfield, operator, singleEntry, hmade]

theorem groupRows_ok_or {spec : Fields}
    (h : ∀ e ∈ spec, e.1 ≠ idKey →
      ∃ name ∈ accumulators, ∃ argument, e.2 = operator name argument)
    (groups : List (Json × List Json)) :
    ((∀ g ∈ groups, ¬Overflows spec g.2) ∧ ∃ out, groupRows spec groups = .ok out)
      ∨ (∃ g ∈ groups, Overflows spec g.2) ∧ groupRows spec groups = .error .sumOverflow := by
  induction groups with
  | nil => exact .inl ⟨by simp, [], rfl⟩
  | cons g rest ih =>
    obtain ⟨key, members⟩ := g
    rcases accumulateFields_ok_or members h [(idKey, key)] with ⟨hfits, row, hrow⟩ | ⟨hover, hrow⟩
    · rcases ih with ⟨hall, rows, hrows⟩ | ⟨⟨g, hg, hover⟩, hrows⟩
      · refine .inl ⟨List.forall_mem_cons.mpr ⟨hfits, hall⟩, .obj row :: rows, ?_⟩
        rw [groupRows, hrow, hrows]
      · exact .inr ⟨⟨g, List.mem_cons_of_mem _ hg, hover⟩, by rw [groupRows, hrow, hrows]⟩
    · exact .inr ⟨⟨_, List.mem_cons_self, hover⟩, by rw [groupRows, hrow]⟩

/-- A grouping that is well-formed gives rows exactly if no sum leaves the range over a group. -/
theorem IsGroupSpec.group_ok_or {spec : Fields} (h : IsGroupSpec spec) {key : Json}
    (hkey : Keyed.get? idKey spec = some key) (docs : List Json) :
    ((∀ g ∈ groupDocs key docs, ¬Overflows spec g.2) ∧ ∃ out, group spec docs = .ok out)
      ∨ (∃ g ∈ groupDocs key docs, Overflows spec g.2)
        ∧ group spec docs = .error .sumOverflow := by
  rw [group, hkey]
  exact groupRows_ok_or h.accumulates _

theorem IsGroupSpec.exists_key {spec : Fields} (h : IsGroupSpec spec) :
    ∃ key, Keyed.get? idKey spec = some key := by
  cases hkey : Keyed.get? idKey spec with
  | none => exact absurd h.grouped ((Keyed.get?_eq_none_iff idKey spec).mp hkey)
  | some key => exact ⟨key, rfl⟩

/-! ## Stages -/

/-- Whether stages make something of all documents, except that a sum may leave the range of 64
bits if there are sums. -/
def AlwaysRuns (sums : Prop) (stages : List Json) : Prop :=
  ∀ docs, (∃ out, run docs stages = .ok out) ∨ run docs stages = .error .sumOverflow ∧ sums

variable {sums : Prop}

theorem alwaysRuns_nil : AlwaysRuns sums [] := fun docs => .inl ⟨docs, rfl⟩

theorem AlwaysRuns.append {stages more : List Json} (h : AlwaysRuns sums stages)
    (hmore : AlwaysRuns sums more) : AlwaysRuns sums (stages ++ more) := by
  intro docs
  rw [run_append]
  rcases h docs with ⟨kept, hkept⟩ | ⟨hover, hsums⟩
  · rw [hkept]
    exact hmore kept
  · exact .inr ⟨by rw [hover]; rfl, hsums⟩

theorem alwaysRuns_single {stage : Json} {read : Stage} (h : Stage.ofJson stage = .ok read)
    (hread : ∀ docs, (∃ out, read.apply docs = .ok out)
      ∨ read.apply docs = .error .sumOverflow ∧ sums) : AlwaysRuns sums [stage] := by
  intro docs
  rw [run_cons h]
  rcases hread docs with ⟨out, hout⟩ | ⟨hover, hsums⟩
  · exact .inl ⟨out, by rw [hout]; rfl⟩
  · exact .inr ⟨by rw [hover]; rfl, hsums⟩

theorem filterDocs_ok {filter : Fields} (h : ∀ doc, ∃ b, satisfies doc filter = .ok b)
    (docs : List Json) : ∃ out, filterDocs filter docs = .ok out :=
  ⟨_, filterDocs_eq_ok.mpr ⟨fun doc _ => h doc, rfl⟩⟩

theorem alwaysRuns_groupStage (c : Criteria) (idField : String) :
    AlwaysRuns (∃ d ∈ c.aggregates, d.logic = .sum) (groupStage c idField) := by
  unfold groupStage
  split
  · exact alwaysRuns_nil
  · have hspec : IsGroupSpec [(idKey, .int 0)] :=
      ⟨by simp [Keyed.keys], by simp [Keyed.keys], by simp⟩
    have hall := isGroupSpec_aggregateFields idField hspec c.aggregates
    obtain ⟨key, hkey⟩ := hall.exists_key
    refine alwaysRuns_single (ofJson_group _) fun docs => ?_
    rcases hall.group_ok_or hkey docs with ⟨-, hout⟩ | ⟨⟨g, -, e, he, hne, argument, hsum, -⟩, hout⟩
    · exact .inl hout
    · refine .inr ⟨hout, ?_⟩
      obtain ⟨field, accumulator⟩ := e
      cases hsum
      rcases sum_of_aggregateFields idField hspec.keys he with h | h
      · rw [List.mem_singleton] at h
        exact absurd (congrArg Prod.fst h) hne
      · exact h

theorem alwaysRuns_selectingStages (c : Criteria) (idField : String) {filter : Fields}
    (h : ∀ doc, ∃ b, satisfies doc filter = .ok b) :
    AlwaysRuns (∃ d ∈ c.aggregates, d.logic = .sum) (selectingStages c idField filter) := by
  have hfilter : AlwaysRuns (∃ d ∈ c.aggregates, d.logic = .sum)
      (if filter.isEmpty then [] else [operator "$match" (.obj filter)]) := by
    split
    · exact alwaysRuns_nil
    · exact alwaysRuns_single (ofJson_match filter) fun docs => .inl (filterDocs_ok h docs)
  have hproject : AlwaysRuns (∃ d ∈ c.aggregates, d.logic = .sum) (projectStage c idField) := by
    unfold projectStage
    split
    · exact alwaysRuns_nil
    · exact alwaysRuns_single (ofJson_project _) fun docs => .inl ⟨_, rfl⟩
  have hsort : AlwaysRuns (∃ d ∈ c.aggregates, d.logic = .sum) (sortStage c idField) := by
    unfold sortStage
    split
    · exact alwaysRuns_nil
    · exact alwaysRuns_single (ofJson_sort _) fun docs => .inl ⟨_, rfl⟩
  exact ((hfilter.append hproject).append hsort).append (alwaysRuns_groupStage c idField)

theorem alwaysRuns_windowStages {c : Criteria} (h : c.page.IsWindow) (counting : Bool) :
    AlwaysRuns sums (windowStages c counting) := by
  obtain ⟨skip, hskip⟩ := Int.eq_ofNat_of_zero_le h.1
  obtain ⟨size, hsize⟩ := Int.eq_ofNat_of_zero_le h.2
  unfold windowStages
  split
  · exact alwaysRuns_single (ofJson_count countField) fun docs => .inl ⟨_, rfl⟩
  · split
    · rw [hskip, hsize]
      exact AlwaysRuns.append (alwaysRuns_single (ofJson_skip skip) fun docs => .inl ⟨_, rfl⟩)
        (alwaysRuns_single (ofJson_limit size) fun docs => .inl ⟨_, rfl⟩)
    · exact alwaysRuns_nil

/-! ## Calls of a store -/

theorem hits_ok {filter : Fields} (h : ∀ doc, ∃ b, satisfies doc filter = .ok b)
    (docs : List Document) : ∃ found, Store.hits filter docs = .ok found := by
  induction docs with
  | nil => exact ⟨[], rfl⟩
  | cons doc rest ih =>
    obtain ⟨hit, hhit⟩ := h doc.toJson
    obtain ⟨found, hfound⟩ := ih
    exact ⟨_, by rw [Store.hits, hhit, hfound]⟩

theorem readAll_ne_pipeline (files : Collection.Files) (ids : List Int) (e : PipelineError) :
    Collection.readAll files ids ≠ .error (.pipeline e) := by
  induction ids with
  | nil => simp [Collection.readAll]
  | cons id rest ih =>
    rw [Collection.readAll]
    cases hread : Collection.read files id with
    | error other =>
      -- The text of a document is the only thing that reading one document can complain about.
      have hother : other = .json := by
        unfold Collection.read at hread
        split at hread
        · simp at hread
        · split at hread <;> simp_all
      simp [hother]
    | ok found =>
      cases hrest : Collection.readAll files rest with
      | error other =>
        rw [hrest] at ih
        simpa using ih
      | ok docs => simp

/-- A filter that answers for every document is no reason for a change to fail. -/
theorem changeMany_ne_pipeline {filter : Fields} (h : ∀ doc, ∃ b, satisfies doc filter = .ok b)
    (s : Store) (name : String)
    (change : Collection.Files → List Document → Nat × Collection.Files) (e : PipelineError) :
    (s.changeMany name filter change).1 ≠ .error (.pipeline e) := by
  have hmatching : ∀ files, Store.matching files filter ≠ .error (.pipeline e) := by
    intro files
    have hall := readAll_ne_pipeline files (Collection.ids files) e
    unfold Store.matching Collection.all
    cases hdocs : Collection.readAll files (Collection.ids files) with
    | error other =>
      rw [hdocs] at hall
      simpa using hall
    | ok docs =>
      obtain ⟨found, hfound⟩ := hits_ok h docs
      simp [hfound]
  simp only [Store.changeMany, Store.open?]
  cases Collection.checkName name with
  | error other => simp
  | ok _ =>
    cases Keyed.get? name s.directories with
    | none => simp
    | some files =>
      have hfiles := hmatching files
      cases hfound : Store.matching files filter with
      | error other =>
        rw [hfound] at hfiles
        simpa [hfound] using hfiles
      | ok docs => simp [hfound]

/-- **The compiler never makes what the evaluator refuses.** Let a criteria be put together by the
builder functions, with no key that names an operator and no map of operators to be equal to. If
its pipeline compiles, for reading or for counting, then the pipeline runs on all documents; only if
it asks for a sum may it stop instead, because the sum leaves the range of 64 bits. If its filter
compiles, then the filter answers for every document, and an update of the documents that satisfy it
never fails because of the filter. -/
theorem pipeline_accepted {c : Criteria} (built : c.Built) (plain : AllPlain c.conditions)
    (idField : String) :
    (∀ counting stages, pipelineOf c idField counting = .ok stages →
        ∀ docs, (∃ out, run docs stages = .ok out)
          ∨ run docs stages = .error .sumOverflow ∧ ∃ d ∈ c.aggregates, d.logic = .sum)
      ∧ ∀ filter, filterOf c.conditions idField = .ok filter →
        (∀ doc, ∃ b, satisfies doc filter = .ok b)
        ∧ ∀ (s : Store) (name : String) (set : Fields) (e : PipelineError),
          (s.perform (.updateMany name filter set)).1 ≠ .error (.pipeline e) := by
  refine ⟨fun counting stages hstages => ?_, fun filter hfilter => ?_⟩
  · obtain ⟨filter, hfilter, rfl⟩ := pipelineOf_eq_ok.mp hstages
    have hselecting := alwaysRuns_selectingStages c idField (filterOf_answers plain hfilter)
    exact hselecting.append (alwaysRuns_windowStages built.isWindow counting)
  · have hanswers := filterOf_answers plain hfilter
    exact ⟨hanswers, fun s name set => changeMany_ne_pipeline hanswers s name _⟩

/-- A repeated key, nested disjunctions, a projection, an order, aggregates and a page. -/
theorem pipeline_accepted_nested :
    let inner := (({} : Criteria).member .isIn "city" [.text "A"]).anyOf
      [({} : Criteria).nullness .isNull "id", ({} : Criteria).compare .like "name" (.text "x")]
    let c := ((((((((({} : Criteria).compare .gt "age" (.integer 1)).compare .eq "age"
      (.map [("$lt", .integer 9), ("n", .null)])).anyOf [inner, {}]).anyOf [inner]).select
      ["age", "id"]).orderBy "age" .desc).aggregate .sum "age").aggregate .avg "id").limit (-3) 9000
    (∃ stages, pipelineOf c "id" false = .ok stages
        ∧ ∀ docs, (∃ out, run docs stages = .ok out)
          ∨ run docs stages = .error .sumOverflow ∧ ∃ d ∈ c.aggregates, d.logic = .sum)
      ∧ ∃ filter, filterOf c.conditions "id" = .ok filter
        ∧ ∀ doc, ∃ b, satisfies doc filter = .ok b := by
  intro inner c
  have hinner : inner.Built := by
    refine .anyOf (.member .empty .isIn "city" [.text "A"]) ?_
    simp only [List.forall_mem_cons]
    exact ⟨.nullness .empty .isNull "id", .compare .empty .like "name" (.text "x"), by simp⟩
  have built : c.Built := by
    refine .limit (.aggregate (.aggregate (.orderBy (.select (.anyOf (.anyOf
      (.compare (.compare .empty .gt "age" _) .eq "age" _) ?_) ?_) _) _ _) _ _) _ _) _ _
    · simp only [List.forall_mem_cons]
      exact ⟨hinner, .empty, by simp⟩
    · simpa using hinner
  have plain : AllPlain c.conditions := by
    simp only [c, inner, Criteria.limit, Criteria.aggregate, Criteria.orderBy, Criteria.select,
      Criteria.anyOf, Criteria.grouped, Criteria.compare, Criteria.member, Criteria.nullness,
      Criteria.add, List.nil_append, List.cons_append, List.map_cons, List.map_nil, AllPlain,
      MembersPlain, Condition.IsPlain, Value.IsPlain, List.mem_cons, exists_eq_or_imp]
    decide
  obtain ⟨hruns, hanswers⟩ := pipeline_accepted built plain "id"
  exact ⟨⟨_, rfl, hruns false _ rfl⟩, _, rfl, (hanswers _ rfl).1⟩

end DualStore.Document
