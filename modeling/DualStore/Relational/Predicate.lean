import DualStore.Criteria.Condition
import DualStore.Text.Join

/-!
# Predicates

The condition part of a statement before it is text: tests of single keys, and disjunctions of
conjunctions of such predicates. The values of a predicate never stand in its text; each is written
as a question mark and handed over as a parameter.

* `Test`: a test of a key with the values it needs;
* `Predicate`: a test, or a disjunction of branches;
* `Predicate.text`, `Predicate.parameters`: its text, and its values in the order of the question
  marks.
-/

namespace DualStore.Relational

inductive Comparison where
  | eq
  | ne
  | lt
  | le
  | gt
  | ge
  deriving DecidableEq, Repr

def Comparison.symbol : Comparison → String
  | .eq => "="
  | .ne => "<>"
  | .lt => "<"
  | .le => "<="
  | .gt => ">"
  | .ge => ">="

inductive Test where
  | compare (operator : Comparison) (value : Value)
  | isNull (negated : Bool)
  | between (negated : Bool) (low high : Value)
  | isIn (negated : Bool) (values : List Value)
  | like (negated : Bool) (value : Value)

/-- A predicate: a test of a key, or a disjunction of branches whose predicates all have to hold. -/
inductive Predicate where
  | test (key : String) (test : Test)
  | any (branches : List (List Predicate))

def placeholders (n : Nat) : String := Text.joinWith ", " (List.replicate n "?")

/-- The word that turns a test around. -/
def negation (negated : Bool) : String := if negated then "not " else ""

/-- The text of a test behind its key. -/
def Test.text : Test → String
  | .compare operator _ => " " ++ operator.symbol ++ " ?"
  | .isNull negated => " is " ++ negation negated ++ "null"
  | .between negated _ _ => " " ++ negation negated ++ "between ? and ?"
  | .isIn negated values => " " ++ negation negated ++ "in(" ++ placeholders values.length ++ ")"
  | .like negated _ => " " ++ negation negated ++ "like concat('%',?,'%')"

def Test.parameters : Test → List Value
  | .compare _ value => [value]
  | .isNull _ => []
  | .between _ low high => [low, high]
  | .isIn _ values => values
  | .like _ value => [value]

namespace Predicate

/-- The text of a conjunction inside a disjunction: one predicate stands alone, several stand in
parentheses. -/
def branchText : List String → String
  | [part] => part
  | parts => "(" ++ Text.joinWith " and " parts ++ ")"

mutual

def text : Predicate → String
  | .test key t => key ++ t.text
  | .any branches => "(" ++ Text.joinWith " or " (branchTexts branches) ++ ")"

def texts : List Predicate → List String
  | [] => []
  | p :: rest => text p :: texts rest

def branchTexts : List (List Predicate) → List String
  | [] => []
  | branch :: rest => branchText (texts branch) :: branchTexts rest

end

mutual

/-- The values of a predicate in the order of its question marks. -/
def parameters : Predicate → List Value
  | .test _ t => t.parameters
  | .any branches => branchParameters branches

def allParameters : List Predicate → List Value
  | [] => []
  | p :: rest => parameters p ++ allParameters rest

def branchParameters : List (List Predicate) → List Value
  | [] => []
  | branch :: rest => allParameters branch ++ branchParameters rest

end

end Predicate

end DualStore.Relational
