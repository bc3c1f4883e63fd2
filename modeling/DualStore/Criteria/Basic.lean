import DualStore.Criteria.Condition

/-!
# Criteria

A criteria describes one read or one update without saying which store runs it: conditions, a
projection, groups, an order, aggregates, tables, a page, assignments, and whether the answer may
come from the cache. It is put together by the functions below, each of which adds to one part.

* `Criteria`: the parts;
* `Criteria.of`: a criteria for an entity type;
* `eq` … `anyOf`: conditions;
* `source`, `join`, `limit`, `offset`, `distinct`, `groupBy`, `orderBy`, `select`, `cached`,
  `assign`, `aggregate`: the other parts.
-/

namespace DualStore

/-- The description of one read or update. -/
structure Criteria extends Parts where
  conditions : List Condition := []

namespace Criteria

def of (model : Model.EntityType) : Criteria := { model := some model }

/-- A condition whose operand is a list of criteria. -/
def grouped (logic : Logic) (key : String) (members : List Criteria) : Condition :=
  .group logic key (members.map Criteria.conditions) (members.map Criteria.toParts)

/-! ## Conditions -/

def add (c : Criteria) (condition : Condition) : Criteria :=
  { c with conditions := c.conditions ++ [condition] }

def compare (c : Criteria) (logic : Logic) (key : String) (value : Value) : Criteria :=
  c.add (.on logic key (.one value))

def eq (c : Criteria) (key : String) (value : Value) : Criteria := c.compare .eq key value

def nullness (c : Criteria) (logic : Logic) (key : String) : Criteria := c.add (.on logic key .none)

/-- The field lies between two values, ends included, or not. -/
def within (c : Criteria) (logic : Logic) (key : String) (low high : Value) : Criteria :=
  c.add (.on logic key (.range low high))

/-- The field is one of the values, or none of them. -/
def member (c : Criteria) (logic : Logic) (key : String) (values : List Value) : Criteria :=
  c.add (.on logic key (.many values))

/-- At least one of the criteria holds; only their conditions count. -/
def anyOf (c : Criteria) (members : List Criteria) : Criteria :=
  c.add (grouped .or "" members)

/-! ## Tables -/

def source (c : Criteria) (table shortName : String) : Criteria :=
  { c with origin := ⟨table, shortName⟩ }

/-- Joins a table; nothing happens without a table or a condition. -/
def join (c : Criteria) (kind : Logic) (table shortName condition : String) : Criteria :=
  if table = "" ∨ condition = "" then c
  else { c with joins := c.joins ++ [⟨kind, table, shortName, condition⟩] }

/-! ## The answer -/

def limit (c : Criteria) (number size : Int) : Criteria := { c with page := .byNumber number size }

def offset (c : Criteria) (offset limit : Int) : Criteria :=
  { c with page := .byOffset offset limit }

def distinct (c : Criteria) (keys : List String) : Criteria :=
  { c with distincts := c.distincts ++ keys }

def groupBy (c : Criteria) (keys : List String) : Criteria := { c with groups := c.groups ++ keys }

def select (c : Criteria) (keys : List String) : Criteria := { c with fields := c.fields ++ keys }

/-- Orders by a key, behind the orders given before. -/
def orderBy (c : Criteria) (key : String) (logic : Logic) : Criteria :=
  { c with orders := c.orders ++ [⟨logic, key⟩] }

def aggregate (c : Criteria) (logic : Logic) (key : String) : Criteria :=
  { c with aggregates := c.aggregates ++ [⟨logic, key⟩] }

/-- Reads through the cache; a directive that is attached is open. -/
def cached (c : Criteria) (directive : CacheDirective) : Criteria :=
  { c with cache := { directive with isOpen := true } }

/-! ## Assignments -/

/-- The assignments after some more: a key that is known keeps its place and takes the new value. -/
def assignAll (assignments : List (String × Value)) : List (String × Value) → List (String × Value)
  | [] => assignments
  | (key, value) :: rest => assignAll (Keyed.put key value assignments) rest

/-- Assigns values to keys, pair by pair; nothing happens if there are more of one than of the
other. -/
def assign (c : Criteria) (keys : List String) (values : List Value) : Criteria :=
  if keys.length = values.length then
    { c with assignments := assignAll c.assignments (keys.zip values) }
  else c

end Criteria

end DualStore
