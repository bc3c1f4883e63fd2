import DualStore.Sql.Datum

/-!
# Sums and means of columns

Integers are added exactly; as soon as there is another number the sum goes on in doubles, with the
rounding errors added up beside it.

* `Sum`, `Sum.add`: a running sum;
* `Sum.result`, `Sum.mean`: what it gives at the end.
-/

namespace DualStore.Sql

/-- A running sum: the exact sum of the integers before the first other number, or the sum of
doubles and its error; and whether an integer sum left the range. -/
structure Sum where
  count : Nat := 0
  exact : Int := 0
  isReal : Bool := false
  total : Float := 0.0
  error : Float := 0.0
  overflowed : Bool := false

def magnitude (x : Float) : Float := if x < 0.0 then -x else x

/-- Adds a double; the digits lost are kept in the error. -/
def Sum.addReal (s : Sum) (x : Float) : Sum :=
  let t := s.total + x
  let lost := if magnitude x < magnitude s.total then (s.total - t) + x else (x - t) + s.total
  { s with total := t, error := s.error + lost }

/-- The bound from which on an integer is added to doubles in two parts. -/
def splitBound : Int := 4503599627370496

def Sum.addWhole (s : Sum) (n : Int) : Sum :=
  if n ≤ -splitBound ∨ splitBound ≤ n then
    let low := n.tmod 16384
    (s.addReal (Float.ofInt (n - low))).addReal (Float.ofInt low)
  else s.addReal (Float.ofInt n)

/-- Goes over from integers to doubles. -/
def Sum.toReal (s : Sum) : Sum :=
  if s.exact ≤ -splitBound ∨ splitBound ≤ s.exact then
    let low := s.exact.tmod 16384
    { s with isReal := true, total := Float.ofInt (s.exact - low), error := Float.ofInt low }
  else { s with isReal := true, total := Float.ofInt s.exact, error := 0.0 }

/-- The part of a text in front that spells a number without sign. -/
def leadingDigits (cs : List Char) : List Char :=
  let before := cs.takeWhile Char.isDigit
  let rest := cs.dropWhile Char.isDigit
  match rest with
  | '.' :: rest => before ++ '.' :: rest.takeWhile Char.isDigit
  | _ => before

/-- The exponent behind a number at the front of a text, with its mark. -/
def leadingPower (cs : List Char) : List Char :=
  match cs with
  | e :: sign :: rest =>
    if e = 'e' ∨ e = 'E' then
      if sign.isDigit then e :: (sign :: rest).takeWhile Char.isDigit
      else if (sign = '-' ∨ sign = '+') ∧ (rest.head?.any Char.isDigit) then
        e :: sign :: rest.takeWhile Char.isDigit
      else []
    else []
  | _ => []

/-- The double at the front of a text; zero if there is none. -/
def leadingReal (s : String) : Float :=
  let cs := s.toList.dropWhile isNumberSpace
  let (negative, cs) :=
    match cs with
    | '-' :: rest => (true, rest)
    | '+' :: rest => (false, rest)
    | _ => (false, cs)
  let ds := leadingDigits cs
  match readUnsigned? negative (ds ++ leadingPower (cs.drop ds.length)) with
  | some (.integer n) => Float.ofInt n
  | some (.real x) => x
  | _ => 0.0

/-- Adds a value; a null is passed over, a text counts as the number that it spells. -/
def Sum.add (s : Sum) (d : Datum) : Sum :=
  let d :=
    match d with
    | .text t =>
      match readNumber? t with
      | some n => n
      | none => d
    | _ => d
  match d with
  | .null => s
  | .integer n =>
    let s := { s with count := s.count + 1 }
    if s.isReal then s.addWhole n
    else if Decimal.fitsInt64 (s.exact + n) then { s with exact := s.exact + n }
    else ({ s with overflowed := true }.toReal).addWhole n
  | .real x =>
    let s := { s with count := s.count + 1 }
    if s.isReal then { s with overflowed := false }.addReal x else s.toReal.addReal x
  | .text t =>
    let s := { s with count := s.count + 1 }
    if s.isReal then { s with overflowed := false }.addReal (leadingReal t)
    else s.toReal.addReal (leadingReal t)

/-- The sum of doubles with its error, unless the error itself has left the range. -/
def Sum.corrected (s : Sum) : Float :=
  if Decimal.isFinite s.error then s.total + s.error else s.total

/-- The sum of a column: null of nothing; nothing at all if an integer sum left the range. -/
def Sum.result (s : Sum) : Option Datum :=
  if s.count = 0 then some .null
  else if s.isReal then (if s.overflowed then none else some (.real s.corrected))
  else some (.integer s.exact)

def Sum.mean (s : Sum) : Datum :=
  if s.count = 0 then .null
  else
    let total := if s.isReal then s.corrected else Float.ofInt s.exact
    .real (total / Float.ofNat s.count)

/-- The least or the greatest of values; nulls are passed over, and of equal values the first
counts. -/
def extremum (want : Ordering) : Datum → List Datum → Datum
  | best, [] => best
  | best, d :: rest =>
    if d.isNull then extremum want best rest
    else if best.isNull ∨ d.order best = want then extremum want d rest
    else extremum want best rest

end DualStore.Sql
