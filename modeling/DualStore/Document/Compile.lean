import DualStore.Criteria.Error
import DualStore.Document.Pipeline

/-!
# Criteria as pipelines

A criteria becomes a filter, and the filter with projection, order, aggregates and page becomes a
pipeline. The identity field of an entity is the field `_id` of its document. Two conditions on one
field are joined in one object of operators if one of them has operators; otherwise the later one
replaces the earlier. Conditions that a filter cannot express are left out.

* `documentKey`: the field of a document that a key names;
* `clause?`: the condition that a marker and an operand put on a field;
* `mergeClause`, `addDisjunction`: conditions joined with those before;
* `filterOf`: the filter of conditions;
* `pipelineOf`: the pipeline of a criteria, for reading or for counting;
* `assignmentsOf`, `countOf`: the fields that an update sets, and the number that counting gives.
-/

namespace DualStore.Document

/-- The field that a counting pipeline gives its number. -/
def countField : String := "COUNT_BY"

/-- The field of a document that a key names. -/
def documentKey (idField key : String) : String :=
  if key = idField ∨ key = idKey then idKey else key

def operator (name : String) (value : Json) : Json := .obj [(name, value)]

/-- What a marker and an operand ask of a field. -/
inductive Clause where
  /-- A condition on the field. -/
  | condition (c : Json)
  /-- Something that no filter expresses. -/
  | dropped
  /-- An operand that the marker cannot take. -/
  | mismatch

def clauseOf : Logic → Operand → Clause
  | .eq, .one v => .condition v.toJson
  | .notEq, .one v => .condition (operator "$ne" v.toJson)
  | .lt, .one v => .condition (operator "$lt" v.toJson)
  | .lte, .one v => .condition (operator "$lte" v.toJson)
  | .gt, .one v => .condition (operator "$gt" v.toJson)
  | .gte, .one v => .condition (operator "$gte" v.toJson)
  | .isNull, _ => .condition .null
  | .isNotNull, _ => .condition (operator "$ne" .null)
  | .between, .range low high => .condition (.obj [("$gte", low.toJson), ("$lte", high.toJson)])
  | .isIn, .many values => .condition (operator "$in" (.arr (Value.itemsToJson values)))
  | .notIn, .many values => .condition (operator "$nin" (.arr (Value.itemsToJson values)))
  | .like, .one v => .condition (operator "$regex" v.toJson)
  | .notBetween, _ => .dropped
  | .notLike, _ => .dropped
  | _, _ => .mismatch

/-- A condition as operators; a plain value is an equality. -/
def asOperators (condition : Json) : Fields :=
  match operators? condition with
  | some fields => fields
  | none => [("$eq", condition)]

def putAll (fields : Fields) : Fields → Fields
  | [] => fields
  | (key, value) :: rest => putAll (Keyed.put key value fields) rest

/-- Two conditions on one field: operators are joined, a later plain value replaces an earlier
one. -/
def joinConditions (earlier later : Json) : Json :=
  if (operators? earlier).isSome ∨ (operators? later).isSome then
    .obj (putAll (asOperators earlier) (asOperators later))
  else later

/-- Joins a condition on a field with those before; it stands last. -/
def mergeClause (filter : Fields) (key : String) (condition : Json) : Fields :=
  let merged :=
    match Keyed.get? key filter with
    | some earlier => joinConditions earlier condition
    | none => condition
  Keyed.put key merged (Keyed.swapErase key filter)

/-- Joins a disjunction with those before: the first stands alone, several stand under `$and`. -/
def addDisjunction (filter : Fields) (branches : List Json) : Fields :=
  let added := operator "$or" (.arr branches)
  match Keyed.get? "$or" filter with
  | some first =>
    Keyed.put "$and" (.arr [operator "$or" first, added]) (Keyed.swapErase "$or" filter)
  | none =>
    match Keyed.get? "$and" filter with
    | some (.arr all) => Keyed.put "$and" (.arr (all ++ [added])) filter
    | _ => Keyed.put "$or" (.arr branches) filter

def addClause (idField : String) (filter : Fields) (condition : Condition) (clause : Clause) :
    Except CompileError Fields :=
  match clause with
  | .condition c => .ok (mergeClause filter (documentKey idField condition.key) c)
  | .dropped => .ok filter
  | .mismatch => .error (.operand condition)

/-- The marker of a condition whose operand is a list of groups, other than a disjunction: some
markers take any operand. -/
def groupClause : Logic → Clause
  | .isNull => .condition .null
  | .isNotNull => .condition (operator "$ne" .null)
  | .notBetween => .dropped
  | .notLike => .dropped
  | _ => .mismatch

mutual

def addCondition (idField : String) (filter : Fields) : Condition → Except CompileError Fields
  | .on logic key operand =>
    addClause idField filter (.on logic key operand) (clauseOf logic operand)
  | .group .or _ members _ => do
    let branches ← branchesOf idField members
    .ok (if branches.isEmpty then filter else addDisjunction filter branches)
  | .group logic key members others =>
    addClause idField filter (.group logic key members others) (groupClause logic)

def addConditions (idField : String) (filter : Fields) : List Condition → Except CompileError Fields
  | [] => .ok filter
  | condition :: rest => do
    let filter ← addCondition idField filter condition
    addConditions idField filter rest

/-- The filters of the groups of a disjunction; an empty one is left out. -/
def branchesOf (idField : String) : List (List Condition) → Except CompileError (List Json)
  | [] => .ok []
  | member :: rest => do
    let branch ← addConditions idField [] member
    let others ← branchesOf idField rest
    .ok (if branch.isEmpty then others else .obj branch :: others)

end

def filterOf (conditions : List Condition) (idField : String) : Except CompileError Fields :=
  addConditions idField [] conditions

/-! ## Stages -/

def accumulator? : Logic → Option String
  | .sum => some "$sum"
  | .max => some "$max"
  | .min => some "$min"
  | .avg => some "$avg"
  | _ => none

/-- The fields that aggregates add to the row of a group; the identity appears under its own
name. -/
def aggregateFields (idField : String) (row : Fields) : List Directive → Fields
  | [] => row
  | d :: rest =>
    match accumulator? d.logic with
    | none => aggregateFields idField row rest
    | some name =>
      let field := documentKey idField d.key
      let target := if field = idKey then idField else field
      aggregateFields idField (Keyed.put target (operator name (.str ("$" ++ field))) row) rest

/-- The stage that asks for fields, if any are asked for. -/
def projectStage (c : Criteria) (idField : String) : List Json :=
  if c.fields = [] then []
  else
    [operator "$project"
      (.obj (putAll [] (c.fields.map fun key => (documentKey idField key, Json.int 1))))]

def sortStage (c : Criteria) (idField : String) : List Json :=
  if c.orders = [] then []
  else
    [operator "$sort"
      (.obj (putAll [] (c.orders.map fun o =>
        (documentKey idField o.key, Json.int (if o.logic = .desc then -1 else 1)))))]

def groupStage (c : Criteria) (idField : String) : List Json :=
  if c.aggregates = [] then []
  else [operator "$group" (.obj (aggregateFields idField [(idKey, .int 0)] c.aggregates))]

/-- The stages at the end: a count, or the page if one is asked for. -/
def windowStages (c : Criteria) (counting : Bool) : List Json :=
  if counting then [operator "$count" (.str countField)]
  else if c.page.isSet then
    [operator "$skip" (.int c.page.skip), operator "$limit" (.int c.page.size)]
  else []

def pipelineOf (c : Criteria) (idField : String) (counting : Bool) :
    Except CompileError (List Json) := do
  let filter ← filterOf c.conditions idField
  let filterStage := if filter.isEmpty then [] else [operator "$match" (.obj filter)]
  .ok (filterStage ++ projectStage c idField ++ sortStage c idField ++ groupStage c idField
    ++ windowStages c counting)

/-- The number that a counting pipeline gives; no document means zero. -/
def countOf (docs : List Json) : Int :=
  ((docs.head?.bind (Json.field? countField)).bind Json.asInt64?).getD 0

/-- The fields that an update sets; the identity is never set. -/
def assignmentsOf (c : Criteria) (idField : String) : Except InputError Fields :=
  if c.assignments = [] then .error .noAssignments
  else
    let kept := c.assignments.filter fun a => documentKey idField a.1 ≠ idKey
    .ok (kept.map fun a => (a.1, a.2.toJson))

end DualStore.Document
