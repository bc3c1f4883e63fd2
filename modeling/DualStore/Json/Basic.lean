import DualStore.Keyed
import DualStore.Decimal.Integer

/-!
# JSON values

Values as they are stored, sent and shown. Integers and doubles are different things, and the fields
of an object keep their order.

* `Json`: the values;
* `asInt64?`, `asNat64?`, `asFloat?`, `asText?`, `asList?`, `asObject?`: views of a value as one
  type;
* `field?`: a field of an object;
* `same`: equality; the order of the fields of an object does not count;
* `merged`: every object with each key once.
-/

namespace DualStore

/-- A JSON value. An integer lies between -2^63 and 2^64; a double is finite. -/
inductive Json where
  | null
  | bool (b : Bool)
  | int (n : Int)
  | float (x : Float)
  | str (s : String)
  | arr (items : List Json)
  | obj (fields : List (String × Json))
  deriving Inhabited

/-- The fields of an object, in order. -/
abbrev Fields := List (String × Json)

namespace Json

/-! ## Views -/

def isNull : Json → Bool
  | .null => true
  | _ => false

def asInt64? : Json → Option Int
  | .int n => if Decimal.fitsInt64 n then some n else none
  | _ => none

/-- An integer that is not negative. -/
def asNat64? : Json → Option Nat
  | .int (.ofNat n) => some n
  | _ => none

/-- A number, rounded to a double. -/
def asFloat? : Json → Option Float
  | .int n => some (Float.ofInt n)
  | .float x => some x
  | _ => none

def asText? : Json → Option String
  | .str s => some s
  | _ => none

def asBool? : Json → Option Bool
  | .bool b => some b
  | _ => none

def asList? : Json → Option (List Json)
  | .arr items => some items
  | _ => none

def asObject? : Json → Option Fields
  | .obj fields => some fields
  | _ => none

/-- A field of an object; what is not an object has none. -/
def field? (key : String) : Json → Option Json
  | .obj fields => Keyed.get? key fields
  | _ => none

/-- A double as a JSON number; one that is not finite becomes null. -/
def ofFloat (finite : Float → Bool) (x : Float) : Json := if finite x then .float x else .null

/-! ## Equality -/

mutual

/-- Equality of values: an integer never equals a double, doubles are compared as numbers, and the
order of the fields of an object does not count. -/
def same : Json → Json → Bool
  | .null, .null => true
  | .bool a, .bool b => a == b
  | .int a, .int b => a == b
  | .float a, .float b => a == b
  | .str a, .str b => a == b
  | .arr xs, .arr ys => sameItems xs ys
  | .obj fs, .obj gs => fs.length == gs.length && sameFields fs gs
  | _, _ => false

def sameItems : List Json → List Json → Bool
  | [], [] => true
  | x :: xs, y :: ys => same x y && sameItems xs ys
  | _, _ => false

/-- Whether every field of the first object has an equal one in the second. -/
def sameFields : List (String × Json) → List (String × Json) → Bool
  | [], _ => true
  | (key, value) :: rest, gs =>
    (match Keyed.get? key gs with
      | some other => same value other
      | none => false) && sameFields rest gs

end

/-! ## Duplicate keys -/

mutual

/-- Every object of a value with each key once, where it came first, with the value that came
last. -/
def merged : Json → Json
  | .arr items => .arr (mergedItems items)
  | .obj fields => .obj (Keyed.merged (mergedFields fields))
  | value => value

def mergedItems : List Json → List Json
  | [] => []
  | value :: rest => merged value :: mergedItems rest

def mergedFields : List (String × Json) → List (String × Json)
  | [] => []
  | (key, value) :: rest => (key, merged value) :: mergedFields rest

end

example : same (.obj [("a", .int 1), ("b", .null)]) (.obj [("b", .null), ("a", .int 1)]) = true :=
  by
  decide

example : same (.int 1) (.float 1.0) = false := by decide

end Json

end DualStore
