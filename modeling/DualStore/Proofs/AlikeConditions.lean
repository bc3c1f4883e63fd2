import DualStore.Proofs.WhereClause
import DualStore.Relational.Statement
import Mathlib.Data.List.Forall2

/-!
# Conditions that only differ in their values

Two lists of conditions that have the same markers and keys, operands of the same shape and the same
groups at every depth are both refused, or become clauses with the same text. The parameters are the
values of the conditions, so they stand at the same places.

* `Condition.Alike`: conditions that agree on everything but their values, which are related;
* `Agree`: two results of which both are errors, or none;
* `allValues_alike`: the values of such conditions go together;
* `predicates?_alike`: they are refused together, and otherwise have the same texts;
* `allParameters_predicates?`: the parameters of predicates are the values of their conditions;
* `clause_alike`, `ofCriteria_alike`: the condition part of a statement, and an update.
-/

namespace DualStore

/-- Whether two results are both errors, or both are none and go together. -/
inductive Agree {ε δ α β : Type} (same : α → β → Prop) : Except ε α → Except δ β → Prop
  | ok {a : α} {b : β} (h : same a b) : Agree same (.ok a) (.ok b)
  | error (e : ε) (d : δ) : Agree same (.error e) (.error d)

namespace Agree

variable {ε δ α β γ κ : Type} {same : α → β → Prop} {other : γ → κ → Prop}

/-- What goes on behind results that agree. -/
theorem bind {x : Except ε α} {y : Except δ β} {f : α → Except ε γ} {g : β → Except δ κ}
    (h : Agree same x y) (hnext : ∀ a b, same a b → Agree other (f a) (g b)) :
    Agree other (x >>= f) (y >>= g) := by
  cases h with
  | ok hab => exact hnext _ _ hab
  | error e d => exact .error e d

theorem refl (x : Except ε α) : Agree Eq x x := by
  cases x with
  | ok a => exact .ok rfl
  | error e => exact .error e e

theorem map {x : Except ε α} {y : Except δ β} {f : α → γ} {g : β → κ} (h : Agree same x y)
    (hnext : ∀ a b, same a b → other (f a) (g b)) : Agree other (x.map f) (y.map g) := by
  cases h with
  | ok hab => exact .ok (hnext _ _ hab)
  | error e d => exact .error e d

theorem mapError {ε' δ' : Type} {x : Except ε α} {y : Except δ β} (h : Agree same x y)
    (f : ε → ε') (g : δ → δ') : Agree same (x.mapError f) (y.mapError g) := by
  cases h with
  | ok hab => exact .ok hab
  | error e d => exact .error _ _

theorem imp {x : Except ε α} {y : Except δ β} {more : α → β → Prop} (h : Agree same x y)
    (himp : ∀ a b, x = .ok a → y = .ok b → same a b → more a b) : Agree more x y := by
  cases h with
  | ok hab => exact .ok (himp _ _ rfl rfl hab)
  | error e d => exact .error e d

end Agree

/-- Whether two operands have the same shape, and values that are related place by place. -/
def Operand.Alike (R : Value → Value → Prop) : Operand → Operand → Prop
  | .none, .none => True
  | .one v, .one w => R v w
  | .range low high, .range low' high' => R low low' ∧ R high high'
  | .many values, .many values' => List.Forall₂ R values values'
  | _, _ => False

namespace Condition

variable (R : Value → Value → Prop)

mutual

/-- Whether two conditions agree on everything but their values, which are related. -/
def Alike : Condition → Condition → Prop
  | .on logic key operand, .on logic' key' operand' =>
    logic = logic' ∧ key = key' ∧ operand.Alike R operand'
  | .group logic key members _, .group logic' key' members' _ =>
    logic = logic' ∧ key = key' ∧ MembersAlike members members'
  | _, _ => False

/-- Whether two lists of conditions agree one by one. -/
def AllAlike : List Condition → List Condition → Prop
  | [], [] => True
  | c :: rest, d :: others => Alike c d ∧ AllAlike rest others
  | _, _ => False

def MembersAlike : List (List Condition) → List (List Condition) → Prop
  | [], [] => True
  | member :: rest, member' :: others => AllAlike member member' ∧ MembersAlike rest others
  | _, _ => False

end

end Condition

namespace Relational

variable {R : Value → Value → Prop}

/-! ## Values -/

theorem operandValues_alike {operand operand' : Operand} (h : operand.Alike R operand')
    (logic : Logic) :
    List.Forall₂ R (operandValues logic operand) (operandValues logic operand') := by
  cases operand <;> cases operand'
  case none.none => cases logic <;> exact .nil
  case one.one v w =>
    have hone : List.Forall₂ R [v] [w] := .cons h .nil
    cases logic <;> first | exact .nil | exact hone
  case range.range low high low' high' =>
    have htwo : List.Forall₂ R [low, high] [low', high'] := .cons h.1 (.cons h.2 .nil)
    cases logic <;> first | exact .nil | exact htwo
  case many.many values values' => cases logic <;> first | exact .nil | exact h
  all_goals exact h.elim

mutual

/-- The values of conditions that are alike go together. -/
theorem values_alike : ∀ c d : Condition, c.Alike R d → List.Forall₂ R c.values d.values
  | .on logic key operand, .on logic' key' operand', h => by
    obtain ⟨rfl, -, hoperand⟩ := h
    exact operandValues_alike hoperand logic
  | .group logic key members _, .group logic' key' members' _, h => by
    obtain ⟨rfl, -, hmembers⟩ := h
    cases logic
    case or => exact memberValues_alike members members' hmembers
    all_goals exact .nil

theorem allValues_alike : ∀ cs ds : List Condition, Condition.AllAlike R cs ds →
    List.Forall₂ R (Condition.allValues cs) (Condition.allValues ds)
  | [], [], _ => .nil
  | c :: rest, d :: others, h =>
    List.rel_append (values_alike c d h.1) (allValues_alike rest others h.2)

theorem memberValues_alike : ∀ ms ns : List (List Condition), Condition.MembersAlike R ms ns →
    List.Forall₂ R (Condition.memberValues ms) (Condition.memberValues ns)
  | [], [], _ => .nil
  | member :: rest, member' :: others, h =>
    List.rel_append (allValues_alike member member' h.1) (memberValues_alike rest others h.2)

end

/-! ## Texts -/

/-- Single conditions with the same marker and key, and operands that are alike. -/
theorem single_alike {operand operand' : Operand} (h : operand.Alike R operand') (logic : Logic)
    (key : String) :
    Agree (fun p q : Predicate => p.text = q.text) (single logic key operand)
      (single logic key operand') := by
  cases operand <;> cases operand'
  case many.many values values' =>
    cases h with
    | nil => cases logic <;> first | exact .ok rfl | exact .error _ _
    | @cons v w vs ws hv hvs =>
      have hlength : (v :: vs).length = (w :: ws).length := congrArg (· + 1) hvs.length_eq
      have htext : ∀ negated,
          (Test.isIn negated (v :: vs)).text = (Test.isIn negated (w :: ws)).text := by
        intro negated
        rw [Test.text, Test.text, hlength]
      cases logic
      case isIn => exact .ok (congrArg (key ++ ·) (htext false))
      case notIn => exact .ok (congrArg (key ++ ·) (htext true))
      all_goals first | exact .ok rfl | exact .error _ _
  all_goals first
    | exact h.elim
    | cases logic <;> first | exact .ok rfl | exact .error _ _

theorem isEmpty_of_texts_eq {ps qs : List Predicate} (h : Predicate.texts ps = Predicate.texts qs) :
    ps.isEmpty = qs.isEmpty := by
  cases ps <;> cases qs <;> first | rfl | cases h

theorem isEmpty_of_branchTexts_eq {bs ds : List (List Predicate)}
    (h : Predicate.branchTexts bs = Predicate.branchTexts ds) : bs.isEmpty = ds.isEmpty := by
  cases bs <;> cases ds <;> first | rfl | cases h

theorem texts_append (ps qs : List Predicate) :
    Predicate.texts (ps ++ qs) = Predicate.texts ps ++ Predicate.texts qs := by
  induction ps with
  | nil => rfl
  | cons p rest ih => rw [List.cons_append, Predicate.texts, ih, Predicate.texts, List.cons_append]

mutual

/-- Conditions that are alike are refused together, and otherwise have the same texts. -/
theorem predicate?_alike : ∀ c d : Condition, c.Alike R d →
    Agree (fun p q : Option Predicate => Predicate.texts p.toList = Predicate.texts q.toList)
      (predicate? c) (predicate? d)
  | .on logic key operand, .on logic' key' operand', h => by
    obtain ⟨rfl, rfl, hoperand⟩ := h
    rw [predicate?, predicate?]
    apply (single_alike hoperand logic key).map
    intro p q htext
    exact congrArg ([·]) htext
  | .group logic key members _, .group logic' key' members' _, h => by
    obtain ⟨rfl, rfl, hmembers⟩ := h
    cases logic
    case or =>
      rw [predicate?, predicate?]
      apply (branches?_alike members members' hmembers).bind
      intro bs ds htexts
      rw [isEmpty_of_branchTexts_eq htexts]
      split
      · exact .ok rfl
      · exact .ok (congrArg (fun texts => ["(" ++ Text.joinWith " or " texts ++ ")"]) htexts)
    all_goals first | exact .ok rfl | exact .error _ _

theorem predicates?_alike : ∀ cs ds : List Condition, Condition.AllAlike R cs ds →
    Agree (fun ps qs : List Predicate => Predicate.texts ps = Predicate.texts qs)
      (predicates? cs) (predicates? ds)
  | [], [], _ => .ok rfl
  | c :: rest, d :: others, h => by
    rw [predicates?, predicates?]
    apply (predicate?_alike c d h.1).bind
    intro p q hfirst
    apply (predicates?_alike rest others h.2).bind
    intro ps qs hothers
    apply Agree.ok
    rw [texts_append, texts_append, hfirst, hothers]

theorem branches?_alike : ∀ ms ns : List (List Condition), Condition.MembersAlike R ms ns →
    Agree (fun bs ds : List (List Predicate) => Predicate.branchTexts bs = Predicate.branchTexts ds)
      (branches? ms) (branches? ns)
  | [], [], _ => .ok rfl
  | member :: rest, member' :: others, h => by
    rw [branches?, branches?]
    apply (predicates?_alike member member' h.1).bind
    intro ps qs hfirst
    apply (branches?_alike rest others h.2).bind
    intro bs ds hothers
    apply Agree.ok
    rw [isEmpty_of_texts_eq hfirst]
    split
    · exact hothers
    · rw [Predicate.branchTexts, Predicate.branchTexts, hfirst, hothers]

end

/-! ## Parameters -/

theorem allParameters_append (ps qs : List Predicate) :
    Predicate.allParameters (ps ++ qs)
      = Predicate.allParameters ps ++ Predicate.allParameters qs := by
  induction ps with
  | nil => rfl
  | cons p rest ih =>
    rw [List.cons_append, Predicate.allParameters, ih, Predicate.allParameters, List.append_assoc]

theorem parameters_single {logic : Logic} {key : String} {operand : Operand} {p : Predicate}
    (h : single logic key operand = .ok p) : p.parameters = operandValues logic operand := by
  rw [single] at h
  cases htest : test? logic operand with
  | none =>
    rw [htest] at h
    cases h
  | some t =>
    rw [htest] at h
    obtain ⟨rfl, -⟩ := checked_eq_ok h
    exact (test?_spec htest key).2

mutual

/-- The parameters of a predicate are the values of its condition. -/
theorem parameters_predicate? : ∀ (c : Condition) {p : Option Predicate}, predicate? c = .ok p →
    Predicate.allParameters p.toList = c.values
  | .on logic key operand, p, h => by
    rw [predicate?] at h
    cases hsingle : single logic key operand with
    | error e =>
      rw [hsingle] at h
      cases h
    | ok q =>
      rw [hsingle] at h
      rw [← Except.ok.inj h, Condition.values, ← parameters_single hsingle]
      exact List.append_nil _
  | .group logic key members _, p, h => by
    cases logic
    case or =>
      rw [predicate?] at h
      cases hbranches : branches? members with
      | error e =>
        rw [hbranches] at h
        cases h
      | ok bs =>
        rw [hbranches] at h
        have hvalues := branchParameters_branches? members hbranches
        rw [← Except.ok.inj h, Condition.values, ← hvalues]
        cases bs with
        | nil => rfl
        | cons branch rest => exact List.append_nil _
    case isNull => rw [← Except.ok.inj h]; rfl
    case isNotNull => rw [← Except.ok.inj h]; rfl
    all_goals cases h

theorem allParameters_predicates? : ∀ (cs : List Condition) {ps : List Predicate},
    predicates? cs = .ok ps → Predicate.allParameters ps = Condition.allValues cs
  | [], ps, h => by
    rw [← Except.ok.inj h]
    rfl
  | c :: rest, ps, h => by
    rw [predicates?] at h
    cases hfirst : predicate? c with
    | error e =>
      rw [hfirst] at h
      cases h
    | ok p =>
      cases hothers : predicates? rest with
      | error e =>
        rw [hfirst, hothers] at h
        cases h
      | ok qs =>
        rw [hfirst, hothers] at h
        rw [← Except.ok.inj h, allParameters_append, parameters_predicate? c hfirst,
          allParameters_predicates? rest hothers, Condition.allValues]

theorem branchParameters_branches? : ∀ (members : List (List Condition))
    {bs : List (List Predicate)}, branches? members = .ok bs →
    Predicate.branchParameters bs = Condition.memberValues members
  | [], bs, h => by
    rw [← Except.ok.inj h]
    rfl
  | member :: rest, bs, h => by
    rw [branches?] at h
    cases hfirst : predicates? member with
    | error e =>
      rw [hfirst] at h
      cases h
    | ok ps =>
      cases hothers : branches? rest with
      | error e =>
        rw [hfirst, hothers] at h
        cases h
      | ok ds =>
        rw [hfirst, hothers] at h
        have hmember := allParameters_predicates? member hfirst
        have hrest := branchParameters_branches? rest hothers
        rw [← Except.ok.inj h, Condition.memberValues, ← hmember, ← hrest]
        cases ps with
        | nil => rfl
        | cons p others => rfl

end

/-! ## Clauses and updates -/

theorem clauseText_of_texts_eq {ps qs : List Predicate}
    (h : Predicate.texts ps = Predicate.texts qs) : clauseText ps = clauseText qs := by
  cases ps <;> cases qs
  case nil.nil => rfl
  case cons.cons =>
    exact congrArg (fun texts => " WHERE " ++ Text.joinWith " and " texts) h
  all_goals cases h

/-- Predicates with the same texts, whose parameters are the values of conditions. -/
structure Alike (R : Value → Value → Prop) (cs ds : List Condition) (ps qs : List Predicate) :
    Prop where
  text : clauseText ps = clauseText qs
  left : Predicate.allParameters ps = Condition.allValues cs
  right : Predicate.allParameters qs = Condition.allValues ds
  related : List.Forall₂ R (Predicate.allParameters ps) (Predicate.allParameters qs)

/-- Conditions that are alike are refused together, or become clauses with the same text and with
their values as parameters. -/
theorem alike_predicates? {cs ds : List Condition} (h : Condition.AllAlike R cs ds) :
    Agree (Alike R cs ds) (predicates? cs) (predicates? ds) := by
  apply (predicates?_alike cs ds h).imp
  intro ps qs hps hqs htexts
  have hleft := allParameters_predicates? cs hps
  have hright := allParameters_predicates? ds hqs
  refine ⟨clauseText_of_texts_eq htexts, hleft, hright, ?_⟩
  rw [hleft, hright]
  exact allValues_alike cs ds h

/-- The condition parts of statements agree; each carries the parameters bound before, and the
values of its conditions behind them. -/
theorem clause_alike {cs ds : List Condition} (h : Condition.AllAlike R cs ds)
    {bound bound' : List Value} (hbound : List.Forall₂ R bound bound') :
    Agree (fun a b : String × List Value =>
        a.1 = b.1 ∧ a.2 = bound ++ Condition.allValues cs ∧ b.2 = bound' ++ Condition.allValues ds
          ∧ List.Forall₂ R a.2 b.2)
      (clause bound cs) (clause bound' ds) := by
  rw [clause, clause]
  apply (alike_predicates? h).bind
  intro ps qs halike
  apply Agree.ok
  refine ⟨halike.text, ?_, ?_, List.rel_append hbound halike.related⟩
  · rw [halike.left]
  · rw [halike.right]

end Relational

/-- Whether two criteria agree on everything but the values in their conditions and assignments,
which are related. -/
structure Criteria.Alike (R : Value → Value → Prop) (c d : Criteria) : Prop where
  conditions : Condition.AllAlike R c.conditions d.conditions
  assignments : List.Forall₂ (fun a b => a.1 = b.1 ∧ R a.2 b.2) c.assignments d.assignments
  others : d = { c with conditions := d.conditions, assignments := d.assignments }

namespace Relational

variable {R : Value → Value → Prop} {c d : Criteria}

theorem keys_of_alike {xs ys : List (String × Value)}
    (h : List.Forall₂ (fun a b => a.1 = b.1 ∧ R a.2 b.2) xs ys) :
    Keyed.keys xs = Keyed.keys ys := by
  induction h with
  | nil => rfl
  | cons hab _ ih => exact congrArg₂ List.cons hab.1 ih

theorem values_of_alike {xs ys : List (String × Value)}
    (h : List.Forall₂ (fun a b => a.1 = b.1 ∧ R a.2 b.2) xs ys) :
    List.Forall₂ R (xs.map Prod.snd) (ys.map Prod.snd) := by
  induction h with
  | nil => exact .nil
  | cons hab _ ih => exact .cons hab.2 ih

/-- Two changes with the same text, whose parameters are related place by place. -/
structure Change.Alike (R : Value → Value → Prop) (a b : Change) : Prop where
  text : a.text = b.text
  related : List.Forall₂ R a.parameters b.parameters

/-- Updates by criteria that are alike agree; each carries the values of its assignments, and those
of its conditions behind them. -/
theorem ofCriteria_alike (h : c.Alike R d) (table : String) :
    Agree (fun a b : Change => a.Alike R b
        ∧ a.parameters = c.assignments.map Prod.snd ++ Condition.allValues c.conditions
        ∧ b.parameters = d.assignments.map Prod.snd ++ Condition.allValues d.conditions)
      (Change.ofCriteria table c) (Change.ofCriteria table d) := by
  have hassign := h.assignments
  rw [Change.ofCriteria, Change.ofCriteria]
  generalize c.assignments = xs at hassign ⊢
  generalize d.assignments = ys at hassign ⊢
  cases hassign with
  | nil => exact .error _ _
  | @cons x y xs ys hxy hrest =>
    have hall : List.Forall₂ (fun a b : String × Value => a.1 = b.1 ∧ R a.2 b.2)
        (x :: xs) (y :: ys) :=
      .cons hxy hrest
    rw [if_neg (List.cons_ne_nil _ _), if_neg (List.cons_ne_nil _ _)]
    have hfilter := alike_predicates? h.conditions
    generalize predicates? c.conditions = left at hfilter ⊢
    generalize predicates? d.conditions = right at hfilter ⊢
    cases hfilter with
    | error e e' => exact .error _ _
    | ok halike =>
      apply Agree.ok
      refine ⟨⟨?_, ?_⟩, ?_, ?_⟩
      · rw [Change.text, Change.text, keys_of_alike hall, halike.text]
      · exact List.rel_append (values_of_alike hall) halike.related
      · rw [Change.parameters, halike.left]
      · rw [Change.parameters, halike.right]

end Relational

end DualStore
