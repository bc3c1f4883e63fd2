import DualStore.Decimal.Integer
import DualStore.Decimal.Shortest

/-!
# Layouts of doubles

The decimal digits of a double are a number; a layout decides how they are written down: which sizes
are written out in full and which with a power of ten, and what the marks look like.

* `Layout`: the decisions;
* `Layout.text`: a double in a layout;
* `Layout.json`, `Layout.column`, `Layout.message`, `Layout.storedText`: the layouts of JSON texts,
  of result columns, of error messages, and of doubles kept in a text column.
-/

namespace DualStore.Decimal

/-- How the digits of a double are written. The size of a number is the power of ten of its first
digit. -/
structure Layout where
  /-- The digits that stand for the double. -/
  digits : Binary → Digits
  /-- The least size written out in full. -/
  least : Int
  /-- The greatest size written out in full, if there is one. -/
  greatest : Option Int
  /-- Whether a whole number keeps a zero behind the point. -/
  pointZero : Bool
  /-- Whether the factor of a power of ten always has a point. -/
  factorPoint : Bool
  /-- Whether a power of ten from one on has a plus sign. -/
  plusSign : Bool
  /-- The least number of digits in a power of ten. -/
  powerDigits : Nat
  /-- Whether a negative zero keeps its sign. -/
  signedZero : Bool

def zeros (n : Nat) : List Char := List.replicate n '0'

/-- Digits written out in full around the decimal point. -/
def positional (pointZero : Bool) (ds : List Char) (exponent : Int) : List Char :=
  match exponent with
  | .ofNat k => ds ++ zeros k ++ (if pointZero then ['.', '0'] else [])
  | .negSucc k =>
    let after := k + 1
    if ds.length ≤ after then ['0', '.'] ++ zeros (after - ds.length) ++ ds
    else ds.take (ds.length - after) ++ '.' :: ds.drop (ds.length - after)

def powerChars (plusSign : Bool) (atLeast : Nat) (power : Int) : List Char :=
  let ds := digits power.natAbs
  (if power < 0 then ['-'] else if plusSign then ['+'] else []) ++ zeros (atLeast - ds.length) ++ ds

/-- Digits as a factor with one digit in front of the point, times a power of ten. -/
def scientific (l : Layout) (ds : List Char) (size : Int) : List Char :=
  let factor :=
    match ds with
    | [] => []
    | [d] => if l.factorPoint then [d, '.', '0'] else [d]
    | d :: rest => d :: '.' :: rest
  factor ++ 'e' :: powerChars l.plusSign l.powerDigits size

def Layout.magnitude (l : Layout) (b : Binary) : List Char :=
  let d := l.digits b
  let ds := Decimal.digits d.digits
  let size : Int := if d.digits = 0 then 0 else d.exponent + ds.length - 1
  if l.least ≤ size && l.greatest.all (size ≤ ·) then positional l.pointZero ds d.exponent
  else scientific l ds size

def Layout.text (l : Layout) (x : Float) : String :=
  if isNaN x then "NaN"
  else
    let b := Binary.ofFloat x
    let sign := if b.negative && (l.signedZero || b.mantissa ≠ 0) then ['-'] else []
    String.ofList (sign ++ if isFinite x then l.magnitude b else ['i', 'n', 'f'])

/-- In JSON the shortest digits are written out from 10^-5 to below 10^16, always with a point or a
power of ten. -/
def Layout.json : Layout :=
  ⟨shortest .toEven, -5, some 15, true, false, true, 1, true⟩

/-- A result column is never written with a power of ten, and a whole number has no point. -/
def Layout.column : Layout :=
  ⟨shortest .up, -400, none, false, false, false, 1, true⟩

/-- An error message writes numbers out from 10^-4 to below 10^16. -/
def Layout.message : Layout :=
  ⟨shortest .up, -4, some 15, true, false, false, 1, true⟩

/-- A double that is put into a text column keeps fifteen digits. -/
def Layout.storedText : Layout :=
  ⟨significant 15, -4, some 14, true, true, true, 2, false⟩

example : Layout.json.text 1e16 = "1e+16" ∧ Layout.json.text 0.00001 = "0.00001"
    ∧ Layout.json.text 1e-7 = "1e-7" ∧ Layout.json.text 100.0 = "100.0" := by decide +kernel

example : Layout.column.text 1e21 = "1000000000000000000000" ∧ Layout.column.text 0.5 = "0.5" := by
  decide +kernel

example : Layout.storedText.text 1e16 = "1.0e+16" ∧ Layout.storedText.text 0.1 = "0.1"
    ∧ Layout.storedText.text 3.0 = "3.0" := by decide +kernel

end DualStore.Decimal
