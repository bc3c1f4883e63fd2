import DualStore.Decimal.Binary

/-!
# Significant digits of a double

Two ways to choose decimal digits for a double: the fewest that read back as the same double, and a
fixed number of them.

* `Digits`: a whole number and a power of ten;
* `shortest`: the fewest digits whose value lies in the interval of reals that round to the double,
  and of those the nearest to the double; a tie between two neighbours goes as `Tie` says;
* `significant`: so many digits, rounded to nearest, a half away from zero;
* `decimalPoint`: how many digits stand in front of the decimal point.
-/

namespace DualStore.Decimal

/-- A decimal number `digits * 10 ^ exponent`. -/
structure Digits where
  digits : Nat
  exponent : Int
  deriving DecidableEq, Repr

/-- Which of two equally near neighbours is taken. -/
inductive Tie where
  | toEven
  | up
  deriving DecidableEq, Repr

/-- `n * 10 ^ e` as numerator and denominator. -/
def scaledTen (n : Nat) (e : Int) : Nat × Nat :=
  match e with
  | .ofNat k => (n * Nat.pow 10 k, 1)
  | .negSucc k => (n, Nat.pow 10 (k + 1))

def ratioLt (a b : Nat × Nat) : Bool := a.1 * b.2 < b.1 * a.2

def ratioLe (a b : Nat × Nat) : Bool := a.1 * b.2 ≤ b.1 * a.2

/-- The number of digits in front of the decimal point of a positive quotient, zero or negative for
what is below one: the least `k` with `a < 10 ^ k`. The search starts at `guess` and goes down while
it can, at most `steps` times. -/
def decimalPoint (a : Nat × Nat) : Nat → Int → Int
  | 0, guess => guess
  | steps + 1, guess =>
    if ratioLt a (scaledTen 1 (guess - 1)) then decimalPoint a steps (guess - 1) else guess

/-- The interval of reals that round to a double. -/
structure Interval where
  low : Nat × Nat
  high : Nat × Nat
  closed : Bool
  deriving DecidableEq, Repr

/-- The reals nearer to a double than to its neighbours, with the ends if the mantissa is even. -/
def Binary.interval (b : Binary) : Interval where
  low := scaled (4 * b.mantissa - (if b.narrow then 1 else 2)) (b.exponent - 2)
  high := scaled (4 * b.mantissa + 2) (b.exponent - 2)
  closed := b.mantissa % 2 = 0

def Interval.holds (i : Interval) (a : Nat × Nat) : Bool :=
  if i.closed then ratioLe i.low a && ratioLe a i.high else ratioLt i.low a && ratioLt a i.high

/-- The value's neighbours on the grid of the multiples of `10 ^ e` that lie in the interval; of two
the nearer. -/
def onGrid (tie : Tie) (i : Interval) (a : Nat × Nat) (e : Int) : Option Nat :=
  let step := scaledTen 1 e
  let below := a.1 * step.2 / (a.2 * step.1)
  let rest := a.1 * step.2 % (a.2 * step.1)
  let lower := i.holds (scaledTen below e)
  let upper := i.holds (scaledTen (below + 1) e)
  match lower, upper with
  | true, true =>
    match compare (2 * rest) (a.2 * step.1) with
    | .lt => some below
    | .gt => some (below + 1)
    | .eq =>
      match tie with
      | .toEven => some (if below % 2 = 0 then below else below + 1)
      | .up => some (below + 1)
  | true, false => some below
  | false, true => some (below + 1)
  | false, false => none

/-- Tries the grids of more and more digits. -/
def searchGrids (tie : Tie) (i : Interval) (a : Nat × Nat) (point : Int) : List Nat → Digits
  | [] => ⟨0, 0⟩
  | n :: rest =>
    match onGrid tie i a (point - n) with
    | some d => ⟨d, point - n⟩
    | none => searchGrids tie i a point rest

def dropZeros : Nat → Digits → Digits
  | 0, d => d
  | steps + 1, d =>
    if d.digits ≠ 0 && d.digits % 10 = 0 then dropZeros steps ⟨d.digits / 10, d.exponent + 1⟩ else d

/-- The fewest digits that read back as the double; seventeen always do. -/
def shortest (tie : Tie) (b : Binary) : Digits :=
  if b.mantissa = 0 then ⟨0, 0⟩
  else
    let a := b.ratio
    dropZeros 20 (searchGrids tie b.interval a (decimalPoint a 700 310) (List.range' 1 17))

/-- The double rounded to so many significant digits, without zeros at the end. -/
def significant (count : Nat) (b : Binary) : Digits :=
  if b.mantissa = 0 then ⟨0, 0⟩
  else
    let a := b.ratio
    let e := decimalPoint a 700 310 - count
    let step := scaledTen 1 e
    let doubled := 2 * a.1 * step.2 / (a.2 * step.1)
    dropZeros 700 ⟨(doubled + 1) / 2, e⟩

example : shortest .toEven (.ofFloat 0.1) = ⟨1, -1⟩ := by decide +kernel

example : shortest .toEven (.ofFloat 1125899906842624.25) = ⟨11258999068426242, -1⟩ :=
  by decide +kernel

example : shortest .up (.ofFloat 1125899906842624.25) = ⟨11258999068426243, -1⟩ := by decide +kernel

end DualStore.Decimal
