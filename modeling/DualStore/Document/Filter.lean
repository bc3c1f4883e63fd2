import DualStore.Document.Basic
import DualStore.Document.Compare
import DualStore.Text.Search

/-!
# Filters

A filter is an object: every field of it has to hold. A field `$or` or `$and` holds a list of
filters; any other names a field of the document and gives an expected value or an object of
operators. Fields, operators and branches are looked at one after the other, and only as long as the
answer is open; what is malformed is noticed when it is looked at.

* `operators?`: the operators of a condition, if it is made of them;
* `testOperator`, `fieldMatches`: conditions on a field;
* `satisfies`: whether a document satisfies a filter.
-/

namespace DualStore.Document

def isOperator (key : String) : Bool := key.toList.head? = some '$'

/-- The operators of a condition: the fields of an object that is not empty and whose keys all name
operators. -/
def operators? : Json → Option Fields
  | .obj [] => none
  | .obj fields => if fields.all fun field => isOperator field.1 then some fields else none
  | _ => none

def expectItems (operator : String) : Json → Except PipelineError (List Json)
  | .arr items => .ok items
  | _ => .error (.expectsArray operator)

/-- Whether a text field holds a pattern; a pattern that is no text is taken as its JSON text. -/
def holdsPattern (actual : Option Json) (pattern : Json) : Bool :=
  match actual, pattern with
  | some (.str s), .str p => Text.contains p.toList s.toList
  | some (.str s), other => Text.contains other.chars s.toList
  | _, _ => false

def testOperator (actual : Option Json) (operator : String) (expected : Json) :
    Except PipelineError Bool :=
  if operator = "$eq" then .ok (equals actual expected)
  else if operator = "$ne" then .ok (!equals actual expected)
  else if operator = "$lt" then .ok (ordered actual expected fun o => o = .lt)
  else if operator = "$lte" then .ok (ordered actual expected fun o => o ≠ .gt)
  else if operator = "$gt" then .ok (ordered actual expected fun o => o = .gt)
  else if operator = "$gte" then .ok (ordered actual expected fun o => o ≠ .lt)
  else if operator = "$in" then
    (expectItems operator expected).map fun items => items.any (equals actual)
  else if operator = "$nin" then
    (expectItems operator expected).map fun items => !items.any (equals actual)
  else if operator = "$regex" then .ok (holdsPattern actual expected)
  else .error (.unsupportedOperator operator)

/-- Whether a field passes operators, up to the first that it does not pass. -/
def testOperators (actual : Option Json) : Fields → Except PipelineError Bool
  | [] => .ok true
  | (operator, expected) :: rest =>
    match testOperator actual operator expected with
    | .error e => .error e
    | .ok false => .ok false
    | .ok true => testOperators actual rest

def fieldMatches (actual : Option Json) (condition : Json) : Except PipelineError Bool :=
  match operators? condition with
  | some operators => testOperators actual operators
  | none => .ok (equals actual condition)

mutual

/-- Whether a document satisfies the fields of a filter, up to the first that does not hold. -/
def satisfies (doc : Json) : List (String × Json) → Except PipelineError Bool
  | [] => .ok true
  | (key, condition) :: rest =>
    match
      (if key = "$or" then someBranch doc condition
      else if key = "$and" then everyBranch doc condition
      else fieldMatches (doc.field? key) condition) with
    | .error e => .error e
    | .ok false => .ok false
    | .ok true => satisfies doc rest

def someBranch (doc : Json) : Json → Except PipelineError Bool
  | .arr branches => someOf doc branches
  | _ => .error (.expectsArray "$or")

def everyBranch (doc : Json) : Json → Except PipelineError Bool
  | .arr branches => everyOf doc branches
  | _ => .error (.expectsArray "$and")

/-- Whether a document satisfies one of some filters, up to the first that it satisfies. -/
def someOf (doc : Json) : List Json → Except PipelineError Bool
  | [] => .ok false
  | branch :: rest =>
    match satisfiesBranch doc "$or" branch with
    | .error e => .error e
    | .ok true => .ok true
    | .ok false => someOf doc rest

/-- Whether a document satisfies some filters, up to the first that it does not satisfy. -/
def everyOf (doc : Json) : List Json → Except PipelineError Bool
  | [] => .ok true
  | branch :: rest =>
    match satisfiesBranch doc "$and" branch with
    | .error e => .error e
    | .ok false => .ok false
    | .ok true => everyOf doc rest

def satisfiesBranch (doc : Json) (operator : String) : Json → Except PipelineError Bool
  | .obj fields => satisfies doc fields
  | _ => .error (.expectsObject operator)

end

end DualStore.Document
