import DualStore.Proofs.ConditionMeaning
import DualStore.Sql.Command

/-!
# The condition part of a statement

The text of a condition part says what the conditions say: its question marks are filled by the
values that were appended to the parameters, and what is read from it has the truth of the
conjunction of the conditions under every assignment of truth values.

* `Renders`, `RendersAll`, `RendersMembers`: what conditions are compiled to, with its meaning;
* `renders_predicates?`: conditions with plain keys are compiled like that;
* `readClause?`: the condition that a condition part spells;
* `clause_means_conditions`: the main statement.
-/

namespace DualStore.Relational

open Sql

/-! ## Truth of connectives -/

theorem andTruth_true (a : Option Bool) : andTruth a (some true) = a := by
  cases a with
  | none => rfl
  | some b => cases b <;> rfl

theorem orTruth_false (a : Option Bool) : orTruth a (some false) = a := by
  cases a with
  | none => rfl
  | some b => cases b <;> rfl

theorem truth_chain_and (v : Assignment) (es : List (Expr ColumnName)) (h : es ≠ []) :
    truth v (chain .and es) = es.foldr (fun e t => andTruth (truth v e) t) (some true) := by
  induction es with
  | nil => exact absurd rfl h
  | cons e es ih =>
    cases es with
    | nil => simp [chain, andTruth_true]
    | cons f es =>
      rw [chain, truth, ih (by simp)]
      rfl

theorem truth_chain_or (v : Assignment) (es : List (Expr ColumnName)) (h : es ≠ []) :
    truth v (chain .or es) = es.foldr (fun e t => orTruth (truth v e) t) (some false) := by
  induction es with
  | nil => exact absurd rfl h
  | cons e es ih =>
    cases es with
    | nil => simp [chain, orTruth_false]
    | cons f es =>
      rw [chain, truth, ih (by simp)]
      rfl

/-! ## Single conditions -/

/-- A test that a marker makes is the atomic predicate of the marker, and has its values. -/
theorem test?_spec {logic : Logic} {operand : Operand} {t : Test} (h : test? logic operand = some t)
    (key : String) :
    atom? key logic operand = some (t.expr (keyExpr key))
      ∧ t.parameters = operandValues logic operand := by
  cases logic <;> cases operand <;> simp only [test?, Option.some.injEq, reduceCtorEq] at h <;>
    · subst h
      exact ⟨rfl, rfl⟩

theorem truth_test (v : Assignment) (a : Expr ColumnName) (t : Test) :
    truth v (t.expr a) = v (t.expr a) := by
  cases t <;> rfl

theorem checked_eq_ok {key : String} {t : Test} {p : Predicate} (h : checked key t = .ok p) :
    p = .test key t ∧ t.IsRegular := by
  unfold checked at h
  split at h
  · simp at h
  · rename_i hempty
    simp only [Except.ok.injEq] at h
    refine ⟨h.symm, ?_⟩
    cases t with
    | isIn negated values =>
      intro hv
      exact hempty negated (by rw [hv])
    | _ => trivial

/-! ## Conditions and their predicates -/

/-- What a condition is compiled to: nothing if it says nothing, else a predicate that means the
same. -/
def Renders (c : Condition) : Option Predicate → Prop
  | none => c.contributes = false ∧ c.values = []
  | some p => c.contributes = true ∧ p.IsRegular ∧ p.parameters = c.values
      ∧ ∀ v, truth v p.expr = c.truth v

/-- What a list of conditions is compiled to. -/
structure RendersAll (cs : List Condition) (ps : List Predicate) : Prop where
  regular : Predicate.AreRegular ps
  values : Predicate.allParameters ps = Condition.allValues cs
  empty : ps.isEmpty = !Condition.anyContributes cs
  truth : ∀ v, (Predicate.exprs ps).foldr (fun e t => andTruth (truth v e) t) (some true)
    = Condition.allTruth v cs

/-- What the groups of a disjunction are compiled to. -/
structure RendersMembers (members : List (List Condition)) (branches : List (List Predicate)) :
    Prop where
  regular : Predicate.AreRegularBranches branches
  values : Predicate.branchParameters branches = Condition.memberValues members
  empty : branches.isEmpty = !Condition.anyMemberContributes members
  truth : ∀ v,
    (Predicate.branchExprs branches).foldr (fun e t => orTruth (truth v e) t) (some false)
      = Condition.someMemberTruth v members

theorem renders_single {logic : Logic} {key : String} {operand : Operand} {p : Predicate}
    (hk : isPlain key = true) (h : single logic key operand = .ok p) :
    p.IsRegular ∧ p.parameters = operandValues logic operand
      ∧ ∀ v, truth v p.expr = (atom? key logic operand).elim (some true) v := by
  unfold single at h
  cases ht : test? logic operand with
  | none => simp [ht] at h
  | some t =>
    rw [ht] at h
    obtain ⟨rfl, hreg⟩ := checked_eq_ok h
    obtain ⟨hatom, hvalues⟩ := test?_spec ht key
    refine ⟨⟨hk, hreg⟩, hvalues, fun v => ?_⟩
    rw [hatom]
    exact truth_test v _ t

theorem RendersMembers.renders {members : List (List Condition)}
    {branches : List (List Predicate)} (h : RendersMembers members branches) (key : String)
    (others : List Parts) : Renders (.group .or key members others)
      (if branches.isEmpty then none else some (.any branches)) := by
  have hcontributes := h.empty
  cases branches with
  | nil =>
    have hvalues := h.values
    simp only [List.isEmpty_nil, Bool.true_eq, Bool.not_eq_eq_eq_not, Bool.not_true] at hcontributes
    exact ⟨hcontributes, hvalues.symm⟩
  | cons branch branches =>
    simp only [List.isEmpty_cons, Bool.false_eq, Bool.not_eq_eq_eq_not, Bool.not_false]
      at hcontributes
    refine ⟨hcontributes, ⟨by simp, h.regular⟩, h.values, fun v => ?_⟩
    rw [Predicate.expr, truth_chain_or v _ (by simp [Predicate.branchExprs])]
    exact h.truth v

theorem RendersAll.cons {c : Condition} {cs : List Condition} {r : Option Predicate}
    {ps : List Predicate} (hcs : RendersAll cs ps) (hc : Renders c r) :
    RendersAll (c :: cs) (r.toList ++ ps) := by
  cases r with
  | none =>
    obtain ⟨hcontributes, hvalues⟩ := hc
    refine ⟨hcs.regular, ?_, ?_, fun v => ?_⟩
    · simp [Condition.allValues, hvalues, hcs.values]
    · simp [Condition.anyContributes, hcontributes, hcs.empty]
    · simp [Condition.allTruth, hcontributes, hcs.truth]
  | some p =>
    obtain ⟨hcontributes, hregular, hvalues, htruth⟩ := hc
    refine ⟨⟨hregular, hcs.regular⟩, ?_, ?_, fun v => ?_⟩
    · simp [Condition.allValues, Predicate.allParameters, hvalues, hcs.values]
    · simp [Condition.anyContributes, hcontributes]
    · have h := hcs.truth v
      simp [Condition.allTruth, hcontributes, Predicate.exprs, htruth, h]

theorem RendersMembers.cons {member : List Condition} {members : List (List Condition)}
    {branch : List Predicate} {branches : List (List Predicate)}
    (hms : RendersMembers members branches) (hm : RendersAll member branch) :
    RendersMembers (member :: members)
      (if branch.isEmpty then branches else branch :: branches) := by
  have hcontributes := hm.empty
  have hvalues := hm.values
  cases branch with
  | nil =>
    simp only [List.isEmpty_nil, Bool.true_eq, Bool.not_eq_eq_eq_not, Bool.not_true] at hcontributes
    simp only [Predicate.allParameters] at hvalues
    refine ⟨hms.regular, ?_, ?_, fun v => ?_⟩
    · simp [Condition.memberValues, ← hvalues, hms.values]
    · simp [Condition.anyMemberContributes, hcontributes, hms.empty]
    · simp [Condition.someMemberTruth, hcontributes, hms.truth]
  | cons p branch =>
    simp only [List.isEmpty_cons, Bool.false_eq, Bool.not_eq_eq_eq_not, Bool.not_false]
      at hcontributes
    refine ⟨⟨⟨by simp, hm.regular⟩, hms.regular⟩, ?_, ?_, fun v => ?_⟩
    · simp [Condition.memberValues, Predicate.branchParameters, hvalues, hms.values]
    · simp [Condition.anyMemberContributes, hcontributes]
    · have h := hms.truth v
      have hconjunction := truth_chain_and v (Predicate.exprs (p :: branch))
        (by simp [Predicate.exprs])
      rw [hm.truth v] at hconjunction
      simp [Condition.someMemberTruth, hcontributes, Predicate.branchExprs, hconjunction, h]

mutual

theorem renders_predicate? : ∀ (c : Condition) (r : Option Predicate),
    c.hasPlainKeys = true → predicate? c = .ok r → Renders c r
  | .on logic key operand, r, hk, h => by
    cases hs : single logic key operand with
    | error e => simp [predicate?, hs, Except.map] at h
    | ok p =>
      simp only [predicate?, hs, Except.map, Except.ok.injEq] at h
      rw [← h]
      exact ⟨rfl, renders_single hk hs⟩
  | .group logic key members others, r, hk, h => by
    cases logic with
    | or =>
      cases hb : branches? members with
      | error e => simp [predicate?, hb, bind, Except.bind] at h
      | ok branches =>
        simp only [predicate?, hb, bind, Except.bind, Except.ok.injEq] at h
        rw [← h]
        exact (renders_branches? members branches hk hb).renders key others
    | isNull =>
      simp only [predicate?, Except.ok.injEq] at h
      rw [← h]
      exact ⟨rfl, ⟨hk, trivial⟩, rfl, fun v => rfl⟩
    | isNotNull =>
      simp only [predicate?, Except.ok.injEq] at h
      rw [← h]
      exact ⟨rfl, ⟨hk, trivial⟩, rfl, fun v => rfl⟩
    | _ => simp [predicate?] at h

theorem renders_predicates? : ∀ (cs : List Condition) (ps : List Predicate),
    Condition.allHavePlainKeys cs = true → predicates? cs = .ok ps → RendersAll cs ps
  | [], ps, _, h => by
    simp only [predicates?, Except.ok.injEq] at h
    subst h
    exact ⟨trivial, rfl, rfl, fun v => rfl⟩
  | c :: rest, ps, hk, h => by
    simp only [Condition.allHavePlainKeys, Bool.and_eq_true] at hk
    cases hc : predicate? c with
    | error e => simp [predicates?, hc, bind, Except.bind] at h
    | ok r =>
      cases hcs : predicates? rest with
      | error e => simp [predicates?, hc, hcs, bind, Except.bind] at h
      | ok others =>
        simp only [predicates?, hc, hcs, bind, Except.bind, Except.ok.injEq] at h
        rw [← h]
        exact (renders_predicates? rest others hk.2 hcs).cons (renders_predicate? c r hk.1 hc)

theorem renders_branches? : ∀ (members : List (List Condition)) (branches : List (List Predicate)),
    Condition.membersHavePlainKeys members = true → branches? members = .ok branches →
      RendersMembers members branches
  | [], branches, _, h => by
    simp only [branches?, Except.ok.injEq] at h
    subst h
    exact ⟨trivial, rfl, rfl, fun v => rfl⟩
  | member :: rest, branches, hk, h => by
    simp only [Condition.membersHavePlainKeys, Bool.and_eq_true] at hk
    cases hm : predicates? member with
    | error e => simp [branches?, hm, bind, Except.bind] at h
    | ok branch =>
      cases hms : branches? rest with
      | error e => simp [branches?, hm, hms, bind, Except.bind] at h
      | ok others =>
        simp only [branches?, hm, hms, bind, Except.bind, Except.ok.injEq] at h
        rw [← h]
        exact (renders_branches? rest others hk.2 hms).cons
          (renders_predicates? member branch hk.1 hm)

end

/-! ## The text -/

/-- The condition that the text of a condition part spells with values for its question marks; an
empty text spells none. -/
def readClause? (text : String) (values : List Value) : Option (Option (Expr ColumnName)) := do
  let tokens ← Token.scan? text
  let filled ← Token.bind? tokens (values.map Datum.ofValue)
  match readCondition filled with
  | some (condition, []) => some condition
  | _ => none

/-- The condition of predicates that all have to hold. -/
def conditionOf (ps : List Predicate) : Option (Expr ColumnName) :=
  if ps.isEmpty then none else some (chain .and (Predicate.exprs ps))

theorem scans_where {cs : List Char} {tokens : List Token} (h : Scans cs tokens) :
    Scans (" WHERE ".toList ++ cs) (.word "WHERE" :: tokens) :=
  .space (.word (w := ['W', 'H', 'E', 'R', 'E']) (by simp) rfl (breaks_cons rfl _) (.space h))

theorem scan?_clauseText {ps : List Predicate} (hne : ps ≠ []) (h : Predicate.AreRegular ps) :
    Token.scan? (clauseText ps)
      = some (.word "WHERE" ::
          separated (.word "and") (Predicate.tokensOfAll unbound ps)) := by
  have hspells := spells_joinWith separates_and (Predicate.spells_texts ps h)
  have hscans := scans_where (hspells [] [] breaks_nil .nil)
  cases ps with
  | nil => exact absurd rfl hne
  | cons p ps =>
    apply Scans.scan?_eq
    simpa [clauseText] using hscans

/-- The condition part of regular predicates spells their conjunction. -/
theorem readClause?_clauseText {ps : List Predicate} (h : Predicate.AreRegular ps) :
    readClause? (clauseText ps) (Predicate.allParameters ps) = some (conditionOf ps) := by
  cases ps with
  | nil => rfl
  | cons p ps =>
    have hne : p :: ps ≠ [] := by simp
    have hscan := scan?_clauseText hne h
    have hfill := (Fills.cons (bind?_word "WHERE") (Predicate.fills_tokensOfAll (p :: ps))).bind?_eq
    have hread := Predicate.readExpression_tokens hne h endsDisjunction_nil
    have hwhere : ∀ rest, afterWord "where" (.word "WHERE" :: rest) = some rest := fun rest => rfl
    rw [List.append_nil] at hread
    simp only [readClause?, hscan, hfill, readCondition, hwhere, hread, Option.bind_eq_bind,
      Option.bind_some]
    rfl

theorem RendersAll.truthOf_conditionOf {cs : List Condition} {ps : List Predicate}
    (h : RendersAll cs ps) (v : Assignment) :
    truthOf v (conditionOf ps) = Condition.allTruth v cs := by
  rw [← h.truth v]
  cases ps with
  | nil => rfl
  | cons p ps => exact truth_chain_and v _ (by simp [Predicate.exprs])

/-- **The text of conditions means the conditions.** If conditions with plain keys are compiled,
their operand values, in depth-first order, are appended to the parameters bound before; there is
one question mark for each of them, and with these values in the places of the question marks, in
order, the text spells a condition that has the truth of the conjunction of the conditions, whatever
the truth of the atomic predicates is. It spells none exactly if no condition says anything. -/
theorem clause_means_conditions {before : List Value} {conditions : List Condition} {text : String}
    {parameters : List Value} (plain : Condition.allHavePlainKeys conditions = true)
    (compiled : clause before conditions = .ok (text, parameters)) :
    parameters = before ++ Condition.allValues conditions
      ∧ ∃ condition, readClause? text (Condition.allValues conditions) = some condition
        ∧ (condition = none ↔ Condition.anyContributes conditions = false)
        ∧ ∀ v, truthOf v condition = Condition.allTruth v conditions := by
  cases hps : predicates? conditions with
  | error e => simp [clause, hps, bind, Except.bind] at compiled
  | ok ps =>
    simp only [clause, hps, bind, Except.bind, Except.ok.injEq, Prod.mk.injEq] at compiled
    obtain ⟨rfl, rfl⟩ := compiled
    have h := renders_predicates? conditions ps plain hps
    rw [← h.values]
    refine ⟨rfl, conditionOf ps, readClause?_clauseText h.regular, ?_, h.truthOf_conditionOf⟩
    have hempty := h.empty
    cases ps <;> simp [conditionOf] at hempty ⊢ <;> simp [hempty]

/-- The conditions of a status, of a name or an age between two bounds, and of an address. -/
theorem clause_means_conditions_nested :
    let conditions : List Condition :=
      [.on .eq "status" (.one (.integer 1)),
        .group .or "" [[.on .eq "name" (.one (.text "x"))], [],
          [.on .gt "age" (.one (.integer 5)), .on .lt "age" (.one (.integer 9))]] [],
        .on .isNotNull "email" .none]
    let text := " WHERE status = ? and (name = ? or (age > ? and age < ?)) and email is not null"
    let values : List Value := [.integer 1, .text "x", .integer 5, .integer 9]
    Condition.allHavePlainKeys conditions = true
      ∧ clause [.null] conditions = .ok (text, .null :: values)
      ∧ ∃ condition, readClause? text values = some condition
        ∧ ∀ v, truthOf v condition = Condition.allTruth v conditions := by
  intro conditions text values
  have plain : Condition.allHavePlainKeys conditions = true := by decide
  have compiled : clause [.null] conditions = .ok (text, .null :: values) := rfl
  obtain ⟨-, condition, hread, -, htruth⟩ := clause_means_conditions plain compiled
  exact ⟨plain, compiled, condition, hread, htruth⟩

end DualStore.Relational
