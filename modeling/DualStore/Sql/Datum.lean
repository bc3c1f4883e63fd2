import DualStore.Value
import DualStore.Decimal.Layout

/-!
# Stored values

What a column can hold, how a column converts what is put into it, and the order of stored values.

* `Datum`: null, integers, doubles and texts;
* `Affinity`, `Affinity.convert`: the conversion that a column of a type makes;
* `readNumber?`: the number that a text spells;
* `Datum.order`, `Datum.compare?`: the order of all values, and the comparison of two that may be
  null;
* `Datum.columnText`, `Datum.asText`: a value as the text of a result column, and inside an
  expression.
-/

namespace DualStore.Sql

inductive Datum where
  | null
  | integer (n : Int)
  | real (x : Float)
  | text (s : String)
  deriving Inhabited

def Datum.ofValue (v : Value) : Datum :=
  match v.bound with
  | .null => .null
  | .integer n => .integer n
  | .real x => .real x
  | .text s => .text s

def Datum.isNull : Datum → Bool
  | .null => true
  | _ => false

/-- A value as the text of a result column; null has none. -/
def Datum.columnText : Datum → Option String
  | .null => none
  | .integer n => some (Decimal.intText n)
  | .real x => some (Decimal.Layout.column.text x)
  | .text s => some s

/-- A value as a text inside an expression; null is the empty text. -/
def Datum.asText : Datum → String
  | .null => ""
  | .integer n => Decimal.intText n
  | .real x => Decimal.Layout.storedText.text x
  | .text s => s

/-! ## Numbers in texts -/

/-- The blanks around a number in a text. -/
def isNumberSpace (c : Char) : Bool :=
  c = ' ' || c = '\t' || c = '\n' || c = '\r' || c = '\x0b' || c = '\x0c'

/-- A double that is a whole number of less than 64 bits as an integer; others stay. -/
def narrowed (x : Float) : Datum :=
  match Decimal.whole? x with
  | some n => if Decimal.int64Min < n ∧ n < Decimal.int64Max then .integer n else .real x
  | none => .real x

/-- The number with the given digits before and behind the point and the given power of ten. -/
def decimalNumber (negative : Bool) (before after : List Char) (power : Int) : Float :=
  let digits : Nat := Nat.ofDigitChars 10 (before ++ after) 0
  let power := power - after.length
  let x :=
    if power < 0 then Float.ofScientific digits true power.natAbs
    else Float.ofScientific digits false power.natAbs
  if negative then -x else x

/-- The exponent at the end of a number; none if what is there is no exponent. -/
def readExponent? : List Char → Option Int
  | [] => some 0
  | c :: rest =>
    if c = 'e' ∨ c = 'E' then
      match rest with
      | '-' :: ds => (Decimal.readNat? ds).map fun n => -((min n 9999 : Nat) : Int)
      | '+' :: ds => (Decimal.readNat? ds).map fun n => ((min n 9999 : Nat) : Int)
      | ds => (Decimal.readNat? ds).map fun n => ((min n 9999 : Nat) : Int)
    else none

/-- A number without sign: an integer if it is spelled as one and fits, else a double. -/
def readUnsigned? (negative : Bool) (cs : List Char) : Option Datum :=
  let before := cs.takeWhile Char.isDigit
  let rest := cs.dropWhile Char.isDigit
  let after :=
    match rest with
    | '.' :: rest => rest.takeWhile Char.isDigit
    | _ => []
  let tail :=
    match rest with
    | '.' :: rest => rest.dropWhile Char.isDigit
    | _ => rest
  if before = [] ∧ after = [] then none
  else
    let n : Int := (Nat.ofDigitChars 10 before 0 : Nat)
    let n := if negative then -n else n
    if rest = [] ∧ Decimal.fitsInt64 n then some (.integer n)
    else (readExponent? tail).map fun power => .real (decimalNumber negative before after power)

/-- The number that a text spells, blanks around it set aside. -/
def readNumber? (s : String) : Option Datum :=
  let cs := (s.toList.dropWhile isNumberSpace).reverse.dropWhile isNumberSpace
  match cs.reverse with
  | '-' :: rest => readUnsigned? true rest
  | '+' :: rest => readUnsigned? false rest
  | rest => readUnsigned? false rest

/-! ## Conversions -/

/-- The type that a column prefers; an expression that is no column prefers none. -/
inductive Affinity where
  | integer
  | text
  | none
  deriving DecidableEq, Repr

/-- A text as the number that it spells, a whole double as an integer; all else stays. -/
def Datum.toNumber (d : Datum) : Datum :=
  match d with
  | .text s =>
    match readNumber? s with
    | some (.real x) => narrowed x
    | some n => n
    | none => d
  | .real x => narrowed x
  | _ => d

def Datum.toText (d : Datum) : Datum :=
  match d with
  | .null => .null
  | _ => .text d.asText

/-- What a column of a type makes of a value put into it. -/
def Affinity.convert : Affinity → Datum → Datum
  | .integer, d => d.toNumber
  | .text, d => d.toText
  | .none, d => d

/-- The values of two sides of a comparison after the conversion that their types ask for: beside an
integer column the other side is read as a number, and beside a text column a side without a type is
written as a text. -/
def convertSides (a b : Affinity × Datum) : Datum × Datum :=
  match a.1, b.1 with
  | .integer, .integer => (a.2, b.2)
  | .integer, _ => (a.2, b.2.toNumber)
  | _, .integer => (a.2.toNumber, b.2)
  | .text, .none => (a.2, b.2.toText)
  | .none, .text => (a.2.toText, b.2)
  | _, _ => (a.2, b.2)

/-! ## Order -/

/-- The order of two doubles; one without a value comes first. -/
def compareReals (x y : Float) : Ordering := if x < y then .lt else if y < x then .gt else .eq

/-- The order of stored values: null, then numbers by size, then texts by their characters. -/
def Datum.order : Datum → Datum → Ordering
  | .null, .null => .eq
  | .null, _ => .lt
  | _, .null => .gt
  | .text s, .text t => compare s t
  | .text _, _ => .gt
  | _, .text _ => .lt
  | .integer m, .integer n => compare m n
  | .integer m, .real y => if Decimal.isFinite y then Decimal.compareInt m y else compareReals 0.0 y
  | .real x, .integer n =>
    if Decimal.isFinite x then (Decimal.compareInt n x).swap else compareReals x 0.0
  | .real x, .real y => compareReals x y

/-- The order of two values; there is none with a null. -/
def Datum.compare? (a b : Datum) : Option Ordering :=
  if a.isNull || b.isNull then none else some (a.order b)

end DualStore.Sql
