import DualStore.Json.Printer
import DualStore.Text.Quoted

/-!
# Operand values

The values that conditions compare with and that updates assign.

* `Value`: the values; a map is ordered by key;
* `Value.ofJson`, `Value.toJson`: from and to JSON;
* `Value.bound`: what a statement parameter carries;
* `Value.describe`: the text of a value in a message.
-/

namespace DualStore

/-- A value given to a condition, to an update or to a statement. -/
inductive Value where
  | null
  | integer (n : Int)
  | real (x : Float)
  | text (s : String)
  | bool (b : Bool)
  | list (items : List Value)
  | map (entries : List (String × Value))
  deriving Inhabited

namespace Value

def isNull : Value → Bool
  | .null => true
  | _ => false

mutual

/-- The value of a JSON value: an integer of 64 bits stays one, every other number is a double. -/
def ofJson : Json → Value
  | .null => .null
  | .bool b => .bool b
  | .int n => if Decimal.fitsInt64 n then .integer n else .real (Float.ofInt n)
  | .float x => .real x
  | .str s => .text s
  | .arr items => .list (ofItems items)
  | .obj fields => .map (Keyed.sorted (ofFields fields))

def ofItems : List Json → List Value
  | [] => []
  | v :: rest => ofJson v :: ofItems rest

def ofFields : List (String × Json) → List (String × Value)
  | [] => []
  | (key, v) :: rest => (key, ofJson v) :: ofFields rest

end

mutual

def toJson : Value → Json
  | .null => .null
  | .integer n => .int n
  | .real x => Json.ofFloat Decimal.isFinite x
  | .text s => .str s
  | .bool b => .bool b
  | .list items => .arr (itemsToJson items)
  | .map entries => .obj (entriesToJson entries)

def itemsToJson : List Value → List Json
  | [] => []
  | v :: rest => toJson v :: itemsToJson rest

def entriesToJson : List (String × Value) → List (String × Json)
  | [] => []
  | (key, v) :: rest => (key, toJson v) :: entriesToJson rest

end

/-! ## Statement parameters -/

/-- What a statement parameter carries. -/
inductive Bound where
  | null
  | integer (n : Int)
  | real (x : Float)
  | text (s : String)

/-- The parameter of a value: a truth value is one or zero, a list or a map is its JSON text. -/
def bound : Value → Bound
  | .null => .null
  | .integer n => .integer n
  | .real x => .real x
  | .text s => .text s
  | .bool b => .integer (if b then 1 else 0)
  | .list items => .text (toJson (.list items)).text
  | .map entries => .text (toJson (.map entries)).text

/-! ## Messages -/

mutual

def describe : Value → String
  | .null => "Null"
  | .integer n => "Integer(" ++ Decimal.intText n ++ ")"
  | .real x => "Real(" ++ Decimal.Layout.message.text x ++ ")"
  | .text s => "Text(" ++ Text.quoted s ++ ")"
  | .bool true => "Bool(true)"
  | .bool false => "Bool(false)"
  | .list [] => "List([])"
  | .list (v :: rest) => "List([" ++ describe v ++ describeRest rest ++ "])"
  | .map [] => "Map(\x7b\x7d)"
  | .map ((key, v) :: rest) =>
    "Map(\x7b" ++ Text.quoted key ++ ": " ++ describe v ++ describeEntries rest ++ "\x7d)"

def describeRest : List Value → String
  | [] => ""
  | v :: rest => ", " ++ describe v ++ describeRest rest

def describeEntries : List (String × Value) → String
  | [] => ""
  | (key, v) :: rest => ", " ++ Text.quoted key ++ ": " ++ describe v ++ describeEntries rest

end

example : (ofJson (.int 9223372036854775808)).describe = "Real(9.223372036854776e18)" :=
  by decide +kernel

end Value

end DualStore
