import DualStore.Document.Filter
import DualStore.Decimal.Binary
import DualStore.Sorting

/-!
# Pipelines

A pipeline is a list of stages; each stage makes a list of documents out of the one before.

* `Stage`, `Stage.ofJson`: the stages and their reading;
* `project`, `sortBy`, `group`, `accumulate`: what the larger stages do;
* `Stage.apply`, `run`: one stage, and all of them in order.
-/

namespace DualStore.Document

inductive Stage where
  | filter (conditions : Fields)
  | project (fields : Fields)
  | sort (keys : Fields)
  | group (spec : Fields)
  | skip (n : Nat)
  | limit (n : Nat)
  | count (field : String)

def singleEntry : Json → Except PipelineError (String × Json)
  | .obj [entry] => .ok entry
  | stage => .error (.malformedStage stage)

def expectObject (name : String) : Json → Except PipelineError Fields
  | .obj fields => .ok fields
  | _ => .error (.expectsObject name)

def expectCount (name : String) (spec : Json) : Except PipelineError Nat :=
  match spec.asNat64? with
  | some n => .ok n
  | none => .error (.expectsCount name)

def expectName : Json → Except PipelineError String
  | .str s => .ok s
  | _ => .error .expectsFieldName

def Stage.ofJson (stage : Json) : Except PipelineError Stage :=
  match singleEntry stage with
  | .error e => .error e
  | .ok (name, spec) =>
    if name = "$match" then (expectObject name spec).map .filter
    else if name = "$project" then (expectObject name spec).map .project
    else if name = "$sort" then (expectObject name spec).map .sort
    else if name = "$group" then (expectObject name spec).map .group
    else if name = "$skip" then (expectCount name spec).map .skip
    else if name = "$limit" then (expectCount name spec).map .limit
    else if name = "$count" then (expectName spec).map .count
    else .error (.unsupportedStage name)

/-! ## Filtering -/

def filterDocs (conditions : Fields) : List Json → Except PipelineError (List Json)
  | [] => .ok []
  | doc :: rest =>
    match satisfies doc conditions with
    | .error e => .error e
    | .ok keep =>
      match filterDocs conditions rest with
      | .error e => .error e
      | .ok kept => .ok (if keep then doc :: kept else kept)

/-! ## Projecting -/

/-- Whether a value in a projection asks for the field. -/
def isTruthy : Json → Bool
  | .null => false
  | .bool b => b
  | .int n => n ≠ 0
  | .float x => !(x == 0.0)
  | _ => true

/-- The fields that a projection asks for, added to those taken before. -/
def projectFields (doc : Json) (taken : Fields) : Fields → Fields
  | [] => taken
  | (key, flag) :: rest =>
    if key = idKey ∨ isTruthy flag = false then projectFields doc taken rest
    else
      match doc.field? key with
      | some v => projectFields doc (Keyed.put key v taken) rest
      | none => projectFields doc taken rest

/-- The asked fields of a document, the identity first unless it is refused. -/
def project (spec : Fields) (doc : Json) : Json :=
  let wanted := ((Keyed.get? idKey spec).map isTruthy).getD true
  let taken : Fields := if wanted then ((doc.field? idKey).map fun id => (idKey, id)).toList else []
  .obj (projectFields doc taken spec)

/-! ## Sorting -/

def isDescending (direction : Json) : Bool := (direction.asInt64?.getD 1) < 0

/-- The order of two documents by keys, the first the most significant. -/
def orderBy : Fields → Json → Json → Ordering
  | [], _, _ => .eq
  | (key, direction) :: rest, a, b =>
    let o := sortOrder (a.field? key) (b.field? key)
    let o := if isDescending direction then o.swap else o
    if o = .eq then orderBy rest a b else o

def sortBy (keys : Fields) (docs : List Json) : List Json :=
  stableSort (fun a b => orderBy keys a b = .lt) docs

/-! ## Grouping -/

/-- The path that a value names with a dollar sign. -/
def path? : Json → Option String
  | .str s => (Text.stripPrefix? ['$'] s.toList).map String.ofList
  | _ => none

/-- The key of the group of a document; a missing field counts as null. -/
def groupKey (spec doc : Json) : Json :=
  match path? spec with
  | some key => (doc.field? key).getD .null
  | none => spec

/-- Puts a document into the first group of an equal key, or into a new group behind the others. -/
def addToGroup (key doc : Json) : List (Json × List Json) → List (Json × List Json)
  | [] => [(key, [doc])]
  | (k, members) :: rest =>
    if Json.same k key then (k, members ++ [doc]) :: rest
    else (k, members) :: addToGroup key doc rest

/-- The groups of documents in the order in which their keys appear. -/
def groupDocs (spec : Json) (docs : List Json) : List (Json × List Json) :=
  docs.foldl (fun groups doc => addToGroup (groupKey spec doc) doc groups) []

/-- The values that an accumulator sees: a field of each member, or a constant; nulls are left
out. -/
def accumulated (argument : Json) (members : List Json) : List Json :=
  (members.filterMap fun doc =>
    match path? argument with
    | some key => doc.field? key
    | none => some argument).filter fun v => !v.isNull

def isNumber : Json → Bool
  | .int _ => true
  | .float _ => true
  | _ => false

/-- The sum of doubles from left to right. -/
def sumFloats (xs : List Float) : Float := xs.foldl (· + ·) (-0.0)

/-- Adds integers of 64 bits one by one to a sum, unless an addition leaves the range. -/
def addInts (acc : Int) : List Int → Except PipelineError Int
  | [] => .ok acc
  | n :: rest => if Decimal.fitsInt64 (acc + n) then addInts (acc + n) rest else .error .sumOverflow

/-- The sum of the numbers among values: of integers in 64 bits, else of doubles. -/
def sum (values : List Json) : Except PipelineError Json :=
  let numbers := values.filter isNumber
  if numbers.all fun n => n.asInt64?.isSome then
    (addInts 0 (numbers.filterMap Json.asInt64?)).map .int
  else .ok (Json.ofFloat Decimal.isFinite (sumFloats (numbers.filterMap Json.asFloat?)))

/-- The mean of the numbers among values. -/
def average (values : List Json) : Json :=
  let numbers := values.filterMap Json.asFloat?
  if numbers.isEmpty then .null
  else Json.ofFloat Decimal.isFinite (sumFloats numbers / Float.ofNat numbers.length)

/-- The first of values that all others stand on the wrong side of: the least, or the greatest. -/
def extreme (want : Ordering) : Option Json → List Json → Option Json
  | best, [] => best
  | none, v :: rest => extreme want (some v) rest
  | some b, v :: rest =>
    extreme want (if sortOrder (some v) (some b) = want then some v else some b) rest

def accumulate (operator : String) (argument : Json) (members : List Json) :
    Except PipelineError Json :=
  let values := accumulated argument members
  if operator = "$sum" then sum values
  else if operator = "$avg" then .ok (average values)
  else if operator = "$min" then .ok ((extreme .lt none values).getD .null)
  else if operator = "$max" then .ok ((extreme .gt none values).getD .null)
  else .error (.unsupportedAccumulator operator)

def accumulateFields (members : List Json) (row : Fields) : Fields → Except PipelineError Fields
  | [] => .ok row
  | (field, accumulator) :: rest =>
    if field = idKey then accumulateFields members row rest
    else
      match singleEntry accumulator with
      | .error e => .error e
      | .ok (operator, argument) =>
        match accumulate operator argument members with
        | .error e => .error e
        | .ok value => accumulateFields members (Keyed.put field value row) rest

def groupRows (spec : Fields) : List (Json × List Json) → Except PipelineError (List Json)
  | [] => .ok []
  | (key, members) :: rest =>
    match accumulateFields members [(idKey, key)] spec with
    | .error e => .error e
    | .ok row =>
      match groupRows spec rest with
      | .error e => .error e
      | .ok rows => .ok (.obj row :: rows)

def group (spec : Fields) (docs : List Json) : Except PipelineError (List Json) :=
  match Keyed.get? idKey spec with
  | none => .error .noGroupKey
  | some key => groupRows spec (groupDocs key docs)

/-! ## Running -/

def Stage.apply (docs : List Json) : Stage → Except PipelineError (List Json)
  | .filter conditions => filterDocs conditions docs
  | .project fields => .ok (docs.map (Document.project fields))
  | .sort keys => .ok (sortBy keys docs)
  | .group spec => Document.group spec docs
  | .skip n => .ok (docs.drop n)
  | .limit n => .ok (docs.take n)
  | .count field => .ok (if docs.isEmpty then [] else [.obj [(field, .int docs.length)]])

def run (docs : List Json) : List Json → Except PipelineError (List Json)
  | [] => .ok docs
  | stage :: rest =>
    match Stage.ofJson stage with
    | .error e => .error e
    | .ok stage =>
      match stage.apply docs with
      | .error e => .error e
      | .ok docs => run docs rest

end DualStore.Document
