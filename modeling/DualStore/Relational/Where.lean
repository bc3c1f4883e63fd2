import DualStore.Criteria.Error
import DualStore.Relational.Predicate

/-!
# Conditions as predicates

Conditions become predicates in their order. A group without conditions contributes nothing, and so
does a disjunction without a group that contributes; a condition whose operand does not fit its
marker is refused.

* `test?`: the test of a single condition;
* `predicates?`: the predicates of conditions;
* `clause`: the condition part of a statement, its values appended to parameters bound before.
-/

namespace DualStore.Relational

/-- The test that a marker makes of an operand; nothing if the marker cannot take it. -/
def test? : Logic → Operand → Option Test
  | .eq, .one v => some (.compare .eq v)
  | .notEq, .one v => some (.compare .ne v)
  | .lt, .one v => some (.compare .lt v)
  | .lte, .one v => some (.compare .le v)
  | .gt, .one v => some (.compare .gt v)
  | .gte, .one v => some (.compare .ge v)
  | .isNull, _ => some (.isNull false)
  | .isNotNull, _ => some (.isNull true)
  | .between, .range low high => some (.between false low high)
  | .notBetween, .range low high => some (.between true low high)
  | .isIn, .many values => some (.isIn false values)
  | .notIn, .many values => some (.isIn true values)
  | .like, .one v => some (.like false v)
  | .notLike, .one v => some (.like true v)
  | _, _ => none

/-- A test of a key; a list of values must not be empty. -/
def checked (key : String) : Test → Except CompileError Predicate
  | .isIn negated [] => .error (.emptyList key (negation negated ++ "in"))
  | test => .ok (.test key test)

def single (logic : Logic) (key : String) (operand : Operand) : Except CompileError Predicate :=
  match test? logic operand with
  | some test => checked key test
  | none => .error (.operand (.on logic key operand))

mutual

/-- The predicate of a condition; none if it contributes nothing. -/
def predicate? : Condition → Except CompileError (Option Predicate)
  | .on logic key operand => (single logic key operand).map some
  | .group .or _ members _ => do
    let branches ← branches? members
    .ok (if branches.isEmpty then none else some (.any branches))
  | .group .isNull key _ _ => .ok (some (.test key (.isNull false)))
  | .group .isNotNull key _ _ => .ok (some (.test key (.isNull true)))
  | .group logic key members others => .error (.operand (.group logic key members others))

def predicates? : List Condition → Except CompileError (List Predicate)
  | [] => .ok []
  | condition :: rest => do
    let first ← predicate? condition
    let others ← predicates? rest
    .ok (first.toList ++ others)

/-- The predicates of the groups of a disjunction; a group without any is left out. -/
def branches? : List (List Condition) → Except CompileError (List (List Predicate))
  | [] => .ok []
  | member :: rest => do
    let branch ← predicates? member
    let others ← branches? rest
    .ok (if branch.isEmpty then others else branch :: others)

end

def clauseText : List Predicate → String
  | [] => ""
  | predicates => " WHERE " ++ Text.joinWith " and " (Predicate.texts predicates)

/-- The condition part of a statement, and the parameters bound before followed by its values. -/
def clause (bound : List Value) (conditions : List Condition) :
    Except CompileError (String × List Value) := do
  let predicates ← predicates? conditions
  .ok (clauseText predicates, bound ++ Predicate.allParameters predicates)

end DualStore.Relational
