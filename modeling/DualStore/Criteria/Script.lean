import DualStore.Criteria.Basic

/-!
# Criteria written in JSON

A criteria can be written down as an object: the name of its entity type, and the calls that build
it, each an array of a name and arguments. Reading it makes the calls in order.

* `Script`: what a written criteria does to a criteria;
* `Script.ofCall?`: a call whose arguments are plain values;
* `Criteria.ofJson?`: a criteria that is written down.
-/

namespace DualStore

/-- What a written criteria does to a criteria. -/
abbrev Script := Criteria → Criteria

namespace Script

def text? : Json → Option String := Json.asText?

def texts? (j : Json) : Option (List String) := j.asList?.bind fun items => items.mapM text?

def values? (j : Json) : Option (List Value) := j.asList?.map Value.ofItems

def logic? (j : Json) : Option Logic := (text? j).bind Logic.ofName?

/-- A cache directive; a part that is not there is empty. -/
def directive (j : Json) : CacheDirective :=
  ⟨((j.field? "open").bind Json.asBool?).getD false, ((j.field? "prefix").bind text?).getD "",
    ((j.field? "key").bind text?).getD "", ((j.field? "expire").bind Json.asInt64?).getD 0⟩

def page? (j : Json) : Option Page := do
  let int? (key : String) : Option Int := (j.field? key).bind Json.asInt64?
  let bool? (key : String) : Option Bool := (j.field? key).bind Json.asBool?
  some ⟨← int? "page_no", ← int? "page_size", ← int? "page_total", ← int? "page_count",
    ← bool? "spilled", ← bool? "is_offset"⟩

def operand? : Json → Option Operand
  | .null => some .none
  | .obj [("one", v)] => some (.one (.ofJson v))
  | .obj [("range", .arr [low, high])] => some (.range (.ofJson low) (.ofJson high))
  | .obj [("many", vs)] => (values? vs).map .many
  | _ => none

def condition? (l : Logic) (key : String) : List Json → Option Script
  | [] => some fun c => c.nullness l key
  | [v] =>
    if l = .isIn ∨ l = .notIn then (values? v).map fun vs c => c.member l key vs
    else some fun c => c.compare l key (.ofJson v)
  | [low, high] => some fun c => c.within l key (.ofJson low) (.ofJson high)
  | _ => none

/-- A call whose arguments are plain values. -/
def ofCall? (name : String) (arguments : List Json) : Option Script :=
  match name, arguments with
  | "from", [table] => do
    let table ← text? table
    some fun c => c.source table ""
  | "from_as", [table, shortName] => do
    let table ← text? table
    let shortName ← text? shortName
    some fun c => c.source table shortName
  | "join", [kind, table, on] => do
    let kind ← logic? kind
    let table ← text? table
    let on ← text? on
    some fun c => c.join kind table "" on
  | "join_as", [kind, table, shortName, on] => do
    let kind ← logic? kind
    let table ← text? table
    let shortName ← text? shortName
    let on ← text? on
    some fun c => c.join kind table shortName on
  | "limit", [number, size] => do
    let number ← number.asInt64?
    let size ← size.asInt64?
    some fun c => c.limit number size
  | "offset", [offset, limit] => do
    let offset ← offset.asInt64?
    let limit ← limit.asInt64?
    some fun c => c.offset offset limit
  | "distinct", [keys] => (texts? keys).map fun keys c => c.distinct keys
  | "groupby", [keys] => (texts? keys).map fun keys c => c.groupBy keys
  | "fields", [keys] => (texts? keys).map fun keys c => c.select keys
  | "orderby", [key, l] => do
    let key ← text? key
    let l ← logic? l
    some fun c => c.orderBy key l
  | "asc", [key] => (text? key).map fun key c => c.orderBy key .asc
  | "desc", [key] => (text? key).map fun key c => c.orderBy key .desc
  | "cache", [d] => some fun c => c.cached (directive d)
  | "cache_key", [key, expire, scope] => do
    let key ← text? key
    let expire ← expire.asInt64?
    let scope ← text? scope
    some fun c => c.cached ⟨true, scope, key, expire⟩
  | "set", [keys, values] => do
    let keys ← texts? keys
    let values ← values? values
    some fun c => c.assign keys values
  | "aggregate", [l, key] => do
    let l ← logic? l
    let key ← text? key
    some fun c => c.aggregate l key
  | "raw_condition", [l, key, operand] => do
    let l ← logic? l
    let key ← text? key
    let operand ← operand? operand
    some fun c => c.add (.on l key operand)
  | "raw_cache", [d] => some fun c => { c with cache := directive d }
  | "raw_page", [p] => (page? p).map fun p c => { c with page := p }
  | _, key :: rest => do
    let l ← Logic.ofName? name
    let key ← text? key
    condition? l key rest
  | _, [] => none

def followed (first second : Script) : Script := fun c => second (first c)

/-- The type of a name as the target of a criteria; null is none. -/
def ofModel? (find : String → Option Model.EntityType) : Json → Option Script
  | .null => some id
  | .str name => (find name).map fun t c => { c with model := some t }
  | _ => none

mutual

def ofJson? (find : String → Option Model.EntityType) : Json → Option Script
  | .obj fields => ofFields? find fields
  | _ => none

def ofFields? (find : String → Option Model.EntityType) : List (String × Json) → Option Script
  | [] => some id
  | (key, .arr steps) :: rest => do
    let first ← if key = "steps" then ofSteps? find steps else none
    let others ← ofFields? find rest
    some (followed first others)
  | (key, v) :: rest => do
    let first ← if key = "model" then ofModel? find v else none
    let others ← ofFields? find rest
    some (followed first others)

def ofSteps? (find : String → Option Model.EntityType) : List Json → Option Script
  | [] => some id
  | .arr [.str "or", .arr members] :: rest => do
    let members ← members? find members
    let others ← ofSteps? find rest
    some (followed (fun c => c.anyOf members) others)
  | .arr [.str "raw_condition", l, key, .obj [("group", .arr members)]] :: rest => do
    let l ← logic? l
    let key ← text? key
    let members ← members? find members
    let others ← ofSteps? find rest
    some (followed (fun c => c.add (Criteria.grouped l key members)) others)
  | .arr (.str name :: arguments) :: rest => do
    let first ← ofCall? name arguments
    let others ← ofSteps? find rest
    some (followed first others)
  | _ => none

def members? (find : String → Option Model.EntityType) : List Json → Option (List Criteria)
  | [] => some []
  | j :: rest => do
    let first ← ofJson? find j
    let others ← members? find rest
    some (first {} :: others)

end

end Script

/-- The criteria that is written down; `find` gives the entity type of a name. -/
def Criteria.ofJson? (find : String → Option Model.EntityType) (j : Json) : Option Criteria :=
  (Script.ofJson? find j).map fun script => script {}

end DualStore
