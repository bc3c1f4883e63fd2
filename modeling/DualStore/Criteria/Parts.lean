import DualStore.Criteria.Logic
import DualStore.Criteria.Page
import DualStore.Model.Entity
import DualStore.Text.Join
import DualStore.Value

/-!
# The parts of a criteria beside its conditions

* `Directive`, `TableRef`, `Join`, `CacheDirective`: the entries of the parts;
* `Parts`: all parts;
* `Parts.describe`: the text of a whole criteria in a message, given that of its conditions.
-/

namespace DualStore

/-- A marker on a key: an order or an aggregate. -/
structure Directive where
  logic : Logic
  key : String
  deriving DecidableEq, Repr

/-- A table and its other name in a statement, which may be missing. -/
structure TableRef where
  table : String := ""
  shortName : String := ""
  deriving DecidableEq, Repr

structure Join where
  kind : Logic
  table : String
  shortName : String
  condition : String
  deriving DecidableEq, Repr

/-- Whether and where an answer is kept in the cache; the time is in seconds. -/
structure CacheDirective where
  isOpen : Bool := false
  scope : String := ""
  key : String := ""
  expire : Int := 0
  deriving DecidableEq, Repr

namespace CacheDirective

def isActive (d : CacheDirective) : Bool := d.isOpen && d.key ≠ ""

def fullKey (d : CacheDirective) : String := d.scope ++ d.key

end CacheDirective

/-- What a criteria says beside its conditions. -/
structure Parts where
  model : Option Model.EntityType := none
  fields : List String := []
  distincts : List String := []
  groups : List String := []
  orders : List Directive := []
  aggregates : List Directive := []
  assignments : List (String × Value) := []
  page : Page := {}
  origin : TableRef := {}
  joins : List Join := []
  cache : CacheDirective := {}

/-! ## Messages -/

section Messages

open Text Decimal

def describeList (items : List String) : String := "[" ++ joinWith ", " items ++ "]"

def describeRecord (name : String) (fields : List (String × String)) : String :=
  name ++ " \x7b " ++ joinWith ", " (fields.map fun (field, value) => field ++ ": " ++ value)
    ++ " \x7d"

def describeFlag (b : Bool) : String := if b then "true" else "false"

def describeMarker (logic : Logic) (key operand : String) : String :=
  describeRecord "Condition" [("logic", logic.label), ("key", quoted key), ("operand", operand)]

def Directive.describe (d : Directive) : String := describeMarker d.logic d.key "None"

def describeModel : Option Model.EntityType → String
  | none => "None"
  | some model => "Some(ModelRef(" ++ quoted model.name ++ "))"

def describeAssignment : String × Value → String
  | (key, value) => "(" ++ quoted key ++ ", " ++ value.describe ++ ")"

def Page.describe (p : Page) : String :=
  describeRecord "Pagination" [("page_no", intText p.number), ("page_size", intText p.size),
    ("page_total", intText p.total), ("page_count", intText p.count),
    ("spilled", describeFlag p.spilled), ("is_offset", describeFlag p.isOffset)]

def TableRef.describe (t : TableRef) : String :=
  describeRecord "FromCond" [("table", quoted t.table), ("alias", quoted t.shortName)]

def Join.describe (j : Join) : String :=
  describeRecord "JoinCond" [("kind", j.kind.label), ("table", quoted j.table),
    ("alias", quoted j.shortName), ("on", quoted j.condition)]

def CacheDirective.describe (d : CacheDirective) : String :=
  describeRecord "CacheConfig" [("open", describeFlag d.isOpen), ("prefix", quoted d.scope),
    ("key", quoted d.key), ("expire", intText d.expire)]

/-- The text of a whole criteria in a message, given the texts of its conditions. -/
def Parts.describe (p : Parts) (conditions : List String) : String :=
  describeRecord "Cnd" [("model", describeModel p.model), ("conditions", describeList conditions),
    ("fields", describeList (p.fields.map quoted)),
    ("distincts", describeList (p.distincts.map quoted)),
    ("groupbys", describeList (p.groups.map quoted)),
    ("orderbys", describeList (p.orders.map Directive.describe)),
    ("aggregates", describeList (p.aggregates.map Directive.describe)),
    ("update_kv", describeList (p.assignments.map describeAssignment)),
    ("pagination", p.page.describe), ("from", p.origin.describe),
    ("joins", describeList (p.joins.map Join.describe)), ("cache", p.cache.describe)]

end Messages

end DualStore
