import DualStore.Document.Compile
import DualStore.Relational.Where

/-!
# Refused conditions

Both stores compile conditions one by one, and the members of a disjunction in its place. Each
refuses the first condition that it cannot express. A statement needs a value in a list and the
operands of a negated range or pattern; a filter takes an empty list, and drops what it cannot say.

* `Condition.leaves`: the conditions that are compiled one by one, in depth-first order;
* `Condition.fits`, `Condition.refusal`: what a statement can express, and the refusal of the rest;
* `Condition.fitsFilter`: what a filter can express or drops;
* `refusalOf_predicates?`, `refusalOf_addConditions`: the first refusal is the answer;
* `Criteria.Composed`: criteria that are made by methods;
* `conditions_refused`: the main statement;
* `group_not_compiled`: groups that a marker takes as an operand are not looked into.
-/

namespace DualStore

/-! ## Conditions that are compiled one by one -/

namespace Condition

mutual

/-- The conditions that are compiled one by one: those of the members of a disjunction stand in its
place. -/
def leaves : Condition → List Condition
  | .group .or _ members _ => memberLeaves members
  | c => [c]

/-- The conditions of a list that are compiled one by one. -/
def allLeaves : List Condition → List Condition
  | [] => []
  | c :: rest => leaves c ++ allLeaves rest

/-- The conditions of members that are compiled one by one. -/
def memberLeaves : List (List Condition) → List Condition
  | [] => []
  | member :: rest => allLeaves member ++ memberLeaves rest

end

/-- The operator of a condition that compares with a list without values. -/
def emptyList? : Condition → Option String
  | .on .isIn _ (.many []) => some "in"
  | .on .notIn _ (.many []) => some "not in"
  | _ => none

/-- What is said of a condition that a statement cannot express. -/
def refusal (c : Condition) : CompileError :=
  match c.emptyList? with
  | some operator => .emptyList c.key operator
  | none => .operand c

/-- Whether a statement can express a condition. -/
def fits : Condition → Bool
  | .on .isNull _ _ => true
  | .on .isNotNull _ _ => true
  | .on .between _ (.range _ _) => true
  | .on .notBetween _ (.range _ _) => true
  | .on .isIn _ (.many values) => !values.isEmpty
  | .on .notIn _ (.many values) => !values.isEmpty
  | .on logic _ (.one _) =>
    logic ∈ [Logic.eq, .notEq, .lt, .lte, .gt, .gte, .like, .notLike]
  | .group logic _ _ _ => logic = .isNull || logic = .isNotNull
  | _ => false

/-- Whether a filter can express a condition, or drops it. -/
def fitsFilter (c : Condition) : Bool :=
  c.fits || c.emptyList?.isSome || c.logic = .notBetween || c.logic = .notLike

/-- The refusal of a condition says its key. -/
theorem message_refusal (c : Condition) :
    ∃ front back, c.refusal.message = front ++ "'" ++ c.key ++ back := by
  unfold refusal
  cases c.emptyList? with
  | some operator =>
    refine ⟨"", " " ++ operator ++ "' needs at least one value", ?_⟩
    simp [CompileError.message, String.append_assoc]
  | none =>
    refine ⟨"condition " ++ c.logic.label ++ " on ", "' cannot take operand " ++ c.describe, ?_⟩
    simp only [CompileError.message, mismatch, String.append_assoc]
    rfl

end Condition

/-! ## The first refusal -/

/-- The refusal in a result. -/
def refusalOf {α : Type} : Except CompileError α → Option CompileError
  | .ok _ => none
  | .error e => some e

section Results

variable {α β : Type}

@[simp] theorem refusalOf_ok (a : α) : refusalOf (.ok a : Except CompileError α) = none := rfl

@[simp] theorem refusalOf_error (e : CompileError) :
    refusalOf (.error e : Except CompileError α) = some e := rfl

theorem refusalOf_eq_none {r : Except CompileError α} : refusalOf r = none ↔ ∃ a, r = .ok a := by
  cases r <;> simp

theorem refusalOf_eq_some {r : Except CompileError α} {e : CompileError} :
    refusalOf r = some e ↔ r = .error e := by
  cases r <;> simp

/-- The first step that is refused decides. -/
theorem refusalOf_bind {x : Except CompileError α} {f : α → Except CompileError β}
    {later : Option CompileError} (h : ∀ a, refusalOf (f a) = later) :
    refusalOf (x >>= f) = (refusalOf x).or later := by
  cases x with
  | error e => rfl
  | ok a => exact h a

theorem refusalOf_map (x : Except CompileError α) (g : α → β) :
    refusalOf (x.map g) = refusalOf x := by
  cases x <;> rfl

theorem refusalOf_bind_ok (x : Except CompileError α) (g : α → β) :
    refusalOf (x >>= fun a => .ok (g a)) = refusalOf x := by
  cases x <;> rfl

end Results

namespace Relational

open Condition

theorem refusalOf_single (logic : Logic) (key : String) (operand : Operand) :
    refusalOf (single logic key operand)
      = if fits (.on logic key operand) then none else some (refusal (.on logic key operand)) := by
  cases operand with
  | many values => cases values <;> cases logic <;> rfl
  | _ => cases logic <;> rfl

mutual

/-- A statement refuses the first condition that it cannot express. -/
theorem refusalOf_predicate? : ∀ c : Condition,
    refusalOf (predicate? c)
      = (leaves c).findSome? fun c => if c.fits then none else some c.refusal
  | .on logic key operand => by
    rw [predicate?, refusalOf_map, refusalOf_single, leaves, List.findSome?_singleton]
    simp
  | .group logic key members _ => by
    cases logic with
    | or =>
      rw [predicate?, leaves, refusalOf_bind_ok, refusalOf_branches? members]
    | _ => rfl

theorem refusalOf_predicates? : ∀ cs : List Condition,
    refusalOf (predicates? cs)
      = (allLeaves cs).findSome? fun c => if c.fits then none else some c.refusal
  | [] => rfl
  | c :: rest => by
    rw [predicates?, allLeaves, List.findSome?_append, ← refusalOf_predicate? c,
      ← refusalOf_predicates? rest]
    apply refusalOf_bind
    intro first
    exact refusalOf_bind_ok _ _

theorem refusalOf_branches? : ∀ members : List (List Condition),
    refusalOf (branches? members)
      = (memberLeaves members).findSome? fun c => if c.fits then none else some c.refusal
  | [] => rfl
  | member :: rest => by
    rw [branches?, memberLeaves, List.findSome?_append, ← refusalOf_predicates? member,
      ← refusalOf_branches? rest]
    apply refusalOf_bind
    intro branch
    exact refusalOf_bind_ok _ _

end

end Relational

namespace Document

open Condition

variable {idField : String}

theorem refusalOf_addClause (filter : Fields) (c : Condition) (clause : Clause) :
    refusalOf (addClause idField filter c clause)
      = match clause with
        | .mismatch => some (.operand c)
        | _ => none := by
  cases clause <;> rfl

/-- The refusal does not depend on the conditions before. -/
theorem refusalOf_addClause_on (filter : Fields) (logic : Logic) (key : String)
    (operand : Operand) :
    refusalOf (addClause idField filter (.on logic key operand) (clauseOf logic operand))
      = if fitsFilter (.on logic key operand) then none
        else some (.operand (.on logic key operand)) := by
  rw [refusalOf_addClause]
  cases operand with
  | many values => cases values <;> cases logic <;> rfl
  | _ => cases logic <;> rfl

mutual

/-- A filter refuses the first condition that it cannot express and does not drop. -/
theorem refusalOf_addCondition : ∀ (filter : Fields) (c : Condition),
    refusalOf (addCondition idField filter c)
      = (leaves c).findSome? fun c => if c.fitsFilter then none else some (.operand c)
  | filter, .on logic key operand => by
    rw [addCondition, refusalOf_addClause_on, leaves, List.findSome?_singleton]
    simp
  | filter, .group logic key members _ => by
    cases logic with
    | or => rw [addCondition, leaves, refusalOf_bind_ok, refusalOf_branchesOf members]
    | _ => rfl

theorem refusalOf_addConditions : ∀ (filter : Fields) (cs : List Condition),
    refusalOf (addConditions idField filter cs)
      = (allLeaves cs).findSome? fun c => if c.fitsFilter then none else some (.operand c)
  | filter, [] => rfl
  | filter, c :: rest => by
    rw [addConditions, allLeaves, List.findSome?_append, ← refusalOf_addCondition filter c]
    apply refusalOf_bind
    intro filter
    exact refusalOf_addConditions filter rest

theorem refusalOf_branchesOf : ∀ members : List (List Condition),
    refusalOf (branchesOf idField members)
      = (memberLeaves members).findSome? fun c =>
          if c.fitsFilter then none else some (.operand c)
  | [] => rfl
  | member :: rest => by
    rw [branchesOf, memberLeaves, List.findSome?_append, ← refusalOf_addConditions [] member,
      ← refusalOf_branchesOf rest]
    apply refusalOf_bind
    intro branch
    exact refusalOf_bind_ok _ _

end

end Document

/-! ## Which conditions compile -/

section Compiled

open Condition

variable {idField : String} {bound : List Value} {cs : List Condition}

/-- Everything fits if nothing is refused. -/
theorem findSome?_refusal_eq_none {fit : Condition → Bool} {refuse : Condition → CompileError} :
    ((allLeaves cs).findSome? fun c => if fit c then none else some (refuse c)) = none
      ↔ ∀ c ∈ allLeaves cs, fit c = true := by
  simp

theorem refusalOf_clause :
    refusalOf (Relational.clause bound cs)
      = (allLeaves cs).findSome? fun c => if c.fits then none else some c.refusal := by
  rw [← Relational.refusalOf_predicates?]
  exact refusalOf_bind_ok _ _

theorem clause_ok_iff :
    (∃ r, Relational.clause bound cs = .ok r) ↔ ∀ c ∈ allLeaves cs, c.fits = true := by
  rw [← refusalOf_eq_none, refusalOf_clause, findSome?_refusal_eq_none]

theorem filterOf_ok_iff :
    (∃ filter, Document.filterOf cs idField = .ok filter)
      ↔ ∀ c ∈ allLeaves cs, c.fitsFilter = true := by
  rw [← refusalOf_eq_none, Document.filterOf, Document.refusalOf_addConditions,
    findSome?_refusal_eq_none]

/-- A negated range has its two ends, and a negated pattern its one value. -/
def Condition.HasOperand (c : Condition) : Prop :=
  (c.logic = .notBetween → ∃ low high, c = .on .notBetween c.key (.range low high))
    ∧ (c.logic = .notLike → ∃ v, c = .on .notLike c.key (.one v))

/-- What a statement takes is what a filter takes or drops, but for lists without values and for
negated ranges and patterns that lack an operand. -/
theorem Condition.fits_iff (c : Condition) :
    c.fits = true ↔ c.fitsFilter = true ∧ c.emptyList? = none ∧ c.HasOperand := by
  cases c with
  | group logic key members =>
    cases logic <;> simp [fits, fitsFilter, emptyList?, HasOperand, Condition.logic]
  | on logic key operand =>
    cases operand with
    | many values =>
      cases values <;> cases logic <;>
        simp [fits, fitsFilter, emptyList?, HasOperand, Condition.logic]
    | _ =>
      cases logic <;>
        simp [fits, fitsFilter, emptyList?, HasOperand, Condition.logic, Condition.key]

/-- A statement names the first condition that it cannot express. -/
theorem clause_error {e : CompileError} (h : Relational.clause bound cs = .error e) :
    ∃ before c after, allLeaves cs = before ++ c :: after ∧ (∀ b ∈ before, b.fits = true)
      ∧ c.fits = false ∧ e = c.refusal := by
  rw [← refusalOf_eq_some, refusalOf_clause, List.findSome?_eq_some_iff] at h
  obtain ⟨before, c, after, hleaves, hrefusal, hbefore⟩ := h
  have hfits : c.fits = false ∧ c.refusal = e := by
    cases hc : c.fits <;> simp [hc] at hrefusal
    exact ⟨rfl, hrefusal⟩
  exact ⟨before, c, after, hleaves, fun b hb => by simpa using hbefore b hb, hfits.1,
    hfits.2.symm⟩

end Compiled

/-! ## Criteria that are made by methods -/

/-- A criteria whose conditions are made by its methods. Those of the other methods leave the
conditions as they are. -/
inductive Criteria.Composed : Criteria → Prop
  | start (model : Option Model.EntityType) : Composed { model := model }
  | compare {c : Criteria} (h : Composed c) {logic : Logic}
    (hlogic : logic ∈ [Logic.eq, .notEq, .lt, .lte, .gt, .gte, .like, .notLike]) (key : String)
    (value : Value) : Composed (c.compare logic key value)
  | nullness {c : Criteria} (h : Composed c) {logic : Logic}
    (hlogic : logic = .isNull ∨ logic = .isNotNull) (key : String) : Composed (c.nullness logic key)
  | within {c : Criteria} (h : Composed c) {logic : Logic}
    (hlogic : logic = .between ∨ logic = .notBetween) (key : String) (low high : Value) :
    Composed (c.within logic key low high)
  | member {c : Criteria} (h : Composed c) {logic : Logic} (hlogic : logic = .isIn ∨ logic = .notIn)
    (key : String) (values : List Value) : Composed (c.member logic key values)
  | anyOf {c : Criteria} (h : Composed c) {members : List Criteria}
    (hmembers : ∀ d ∈ members, Composed d) : Composed (c.anyOf members)
  | other {c d : Criteria} (h : Composed c) (hsame : d.conditions = c.conditions) : Composed d

namespace Condition

theorem allLeaves_append (cs ds : List Condition) :
    allLeaves (cs ++ ds) = allLeaves cs ++ allLeaves ds := by
  induction cs with
  | nil => rfl
  | cons c rest ih => rw [List.cons_append, allLeaves, allLeaves, ih, List.append_assoc]

theorem mem_memberLeaves {members : List (List Condition)} {c : Condition} :
    c ∈ memberLeaves members ↔ ∃ member ∈ members, c ∈ allLeaves member := by
  induction members with
  | nil => simp [memberLeaves]
  | cons member rest ih => simp [memberLeaves, ih]

end Condition

open Condition in
/-- A method makes a condition that a statement can express, or one with a list without values. -/
theorem Criteria.Composed.fits_or_empty {c : Criteria} (h : c.Composed) :
    ∀ leaf ∈ allLeaves c.conditions, leaf.fits = true ∨ leaf.emptyList?.isSome = true := by
  have hadd : ∀ (c : Criteria) (condition : Condition),
      (∀ leaf ∈ allLeaves c.conditions, leaf.fits = true ∨ leaf.emptyList?.isSome = true) →
      (∀ leaf ∈ leaves condition, leaf.fits = true ∨ leaf.emptyList?.isSome = true) →
      ∀ leaf ∈ allLeaves (c.add condition).conditions,
        leaf.fits = true ∨ leaf.emptyList?.isSome = true := by
    intro c condition hc hcondition leaf hleaf
    rw [Criteria.add, allLeaves_append, allLeaves, allLeaves, List.append_nil] at hleaf
    exact (List.mem_append.mp hleaf).elim (hc leaf) (hcondition leaf)
  induction h with
  | start model => simp [allLeaves]
  | @compare c h logic hlogic key value ih =>
    have hfits : (Condition.on logic key (.one value)).fits = true := by
      cases logic <;> first | rfl | simp at hlogic
    apply hadd _ _ ih
    simp [leaves, hfits]
  | nullness h hlogic key ih =>
    apply hadd _ _ ih
    rcases hlogic with rfl | rfl <;> simp [leaves, fits]
  | within h hlogic key low high ih =>
    apply hadd _ _ ih
    rcases hlogic with rfl | rfl <;> simp [leaves, fits]
  | member h hlogic key values ih =>
    apply hadd _ _ ih
    rcases hlogic with rfl | rfl <;> cases values <;> simp [leaves, fits, emptyList?]
  | anyOf h hmembers ih ihs =>
    apply hadd _ _ ih
    intro leaf hleaf
    rw [Criteria.grouped, leaves, mem_memberLeaves] at hleaf
    obtain ⟨member, hmember, hleaf⟩ := hleaf
    obtain ⟨d, hd, rfl⟩ := List.mem_map.mp hmember
    exact ihs d hd leaf hleaf
  | other h hsame ih => rwa [hsame]

open Condition in
/-- No statement is made of conditions that are made by methods if some list is without values. -/
theorem Criteria.Composed.clause_error_iff {c : Criteria} (h : c.Composed) {bound : List Value} :
    (∃ e, Relational.clause bound c.conditions = .error e) ↔
      ∃ leaf ∈ allLeaves c.conditions, leaf.emptyList? ≠ none := by
  constructor
  · rintro ⟨e, herror⟩
    obtain ⟨before, leaf, after, hleaves, -, hfits, -⟩ := clause_error herror
    have hmem : leaf ∈ allLeaves c.conditions := by simp [hleaves]
    refine ⟨leaf, hmem, fun hempty => ?_⟩
    rcases h.fits_or_empty leaf hmem with hfit | hsome
    · simp [hfit] at hfits
    · simp [hempty] at hsome
  · rintro ⟨leaf, hmem, hempty⟩
    cases hclause : Relational.clause bound c.conditions with
    | error e => exact ⟨e, rfl⟩
    | ok r =>
      have hfits := clause_ok_iff.mp ⟨r, hclause⟩ leaf hmem
      exact absurd ((fits_iff leaf).mp hfits).2.1 hempty

open Condition in
/-- **Which conditions are refused.** A statement takes conditions exactly if a filter does, no list
of values is empty, every negated range has its ends and every negated pattern its value; of a
disjunction this is asked of the conditions of its members. A statement that is refused names the
first condition that it cannot express, in depth-first order. So of a criteria that is made by
methods there is always a filter, and a statement unless some list of values is empty. -/
theorem conditions_refused (idField : String) (bound : List Value) :
    (∀ cs, (∃ r, Relational.clause bound cs = .ok r) ↔
      (∃ filter, Document.filterOf cs idField = .ok filter)
        ∧ ∀ c ∈ allLeaves cs, c.emptyList? = none ∧ c.HasOperand)
    ∧ (∀ cs e, Relational.clause bound cs = .error e →
      ∃ before c after, allLeaves cs = before ++ c :: after ∧ (∀ b ∈ before, b.fits = true)
        ∧ c.fits = false ∧ e = c.refusal
        ∧ ∃ front back, e.message = front ++ "'" ++ c.key ++ back)
    ∧ ∀ c : Criteria, c.Composed →
      (∃ filter, Document.filterOf c.conditions idField = .ok filter)
        ∧ ((∃ e, Relational.clause bound c.conditions = .error e) ↔
          ∃ leaf ∈ allLeaves c.conditions, leaf.emptyList? ≠ none) := by
  refine ⟨fun cs => ?_, fun cs e h => ?_, fun c hc => ⟨?_, ?_⟩⟩
  · rw [clause_ok_iff, filterOf_ok_iff]
    simp only [fits_iff]
    exact ⟨fun h => ⟨fun c hc => (h c hc).1, fun c hc => (h c hc).2⟩,
      fun h c hc => ⟨h.1 c hc, h.2 c hc⟩⟩
  · obtain ⟨before, c, after, hleaves, hbefore, hfits, rfl⟩ := clause_error h
    exact ⟨before, c, after, hleaves, hbefore, hfits, rfl, message_refusal c⟩
  · rw [filterOf_ok_iff]
    intro leaf hleaf
    rcases hc.fits_or_empty leaf hleaf with h | h <;> simp [fitsFilter, h]
  · exact hc.clause_error_iff

/-- A list without values in a disjunction, behind a negated pattern: there is a filter, and the
statement names the list. -/
theorem conditions_refused_nested :
    let c := (({} : Criteria).compare .notLike "name" (.text "x")).anyOf
      [({} : Criteria).compare .eq "age" (.integer 3), ({} : Criteria).member .notIn "tag" []]
    c.Composed
      ∧ (∃ filter, Document.filterOf c.conditions "id" = .ok filter)
      ∧ Relational.clause [] c.conditions = .error (.emptyList "tag" "not in") := by
  intro c
  have start : ({} : Criteria).Composed := .start none
  have composed : c.Composed := by
    apply Criteria.Composed.anyOf (start.compare (by simp) "name" (.text "x"))
    intro d hd
    rcases List.mem_cons.mp hd with rfl | hd
    · exact start.compare (by simp) "age" (.integer 3)
    · rw [List.mem_singleton.mp hd]
      exact start.member (.inr rfl) "tag" []
  exact ⟨composed, ((conditions_refused "id" []).2.2 c composed).1, rfl⟩

namespace Condition

mutual

/-- A condition, and those in the groups of its operand at any depth, whatever its marker. -/
def parts : Condition → List Condition
  | .on logic key operand => [.on logic key operand]
  | .group logic key members others => .group logic key members others :: memberParts members

/-- The conditions of a list, with those in the groups of their operands. -/
def allParts : List Condition → List Condition
  | [] => []
  | c :: rest => parts c ++ allParts rest

/-- The conditions of groups, with those in the groups of their operands. -/
def memberParts : List (List Condition) → List Condition
  | [] => []
  | member :: rest => allParts member ++ memberParts rest

end

end Condition

open Condition in
/-- A list without values in a group that a marker takes as its operand: neither store looks into
the group, and both take the condition. -/
theorem group_not_compiled :
    let empty : Condition := .on .isIn "a" (.many [])
    let cs : List Condition := [.group .isNull "k" [[empty]] []]
    Relational.clause [] cs = .ok (" WHERE k is null", [])
      ∧ Document.filterOf cs "id" = .ok [("k", .null)]
      ∧ empty ∈ allParts cs ∧ empty.emptyList? = some "in"
      ∧ ¬((∃ r, Relational.clause [] cs = .ok r) ↔
        (∃ filter, Document.filterOf cs "id" = .ok filter)
          ∧ ∀ c ∈ allParts cs, c.emptyList? = none ∧ c.HasOperand) := by
  intro empty cs
  have hclause : Relational.clause [] cs = .ok (" WHERE k is null", []) := rfl
  have hmem : empty ∈ allParts cs := by simp [cs, empty, allParts, parts, memberParts]
  refine ⟨hclause, rfl, hmem, rfl, fun h => ?_⟩
  have hempty := ((h.mp ⟨_, hclause⟩).2 empty hmem).1
  simp [empty, emptyList?] at hempty

end DualStore
