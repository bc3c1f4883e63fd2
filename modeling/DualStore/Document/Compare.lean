import DualStore.Json.Basic

/-!
# Comparing values of documents

* `compareValues`: the order of two values of one type, if they have one;
* `equals`: equality with an expected value; null is also equal to a missing field;
* `ordered`: an order test, which no missing field passes;
* `sortOrder`: the order of sorting, for all values: missing and null, numbers, texts, truth values,
  and then the rest.
-/

namespace DualStore.Document

def compareFloats (a b : Float) : Option Ordering :=
  if a < b then some .lt else if b < a then some .gt else if a == b then some .eq else none

/-- The order of two numbers: exact if both are integers of 64 bits, else as doubles. -/
def compareNumbers (a b : Json) : Option Ordering :=
  match a.asInt64?, b.asInt64? with
  | some m, some n => some (compare m n)
  | _, _ =>
    match a.asFloat?, b.asFloat? with
    | some x, some y => compareFloats x y
    | _, _ => none

/-- The order of two values of one type. -/
def compareValues : Json → Json → Option Ordering
  | .str s, .str t => some (compare s t)
  | .bool a, .bool b => some (compare a b)
  | a, b => compareNumbers a b

/-- Whether a field equals an expected value; null also stands for a missing field. -/
def equals (actual : Option Json) (expected : Json) : Bool :=
  match actual with
  | none => expected.isNull
  | some value => compareValues value expected = some .eq || Json.same value expected

/-- Whether a field is there and its order with an expected value passes a test. -/
def ordered (actual : Option Json) (expected : Json) (test : Ordering → Bool) : Bool :=
  match actual.bind (compareValues · expected) with
  | some o => test o
  | none => false

/-- The place of a value among the types. -/
def rank : Option Json → Nat
  | none => 0
  | some .null => 0
  | some (.int _) => 1
  | some (.float _) => 1
  | some (.str _) => 2
  | some (.bool _) => 3
  | some (.arr _) => 4
  | some (.obj _) => 4

def sortOrder (a b : Option Json) : Ordering :=
  match a, b with
  | some x, some y => (compareValues x y).getD (compare (rank a) (rank b))
  | _, _ => compare (rank a) (rank b)

end DualStore.Document
