/-!
# Binary floating point as exact numbers

A double is a sign, a mantissa and a power of two; its exact value is a quotient of two natural
numbers. All text of doubles is chosen by comparing such quotients.

Powers are written `Nat.pow`: what `2 ^ n` means depends on whether the algebra library is imported.

* `Binary`: a finite double taken apart;
* `ofFloat`: the parts of a double (of the largest binade for what is not finite);
* `Binary.ratio`: numerator and denominator of the magnitude;
* `compareInt`: the exact order of an integer and a double.
-/

namespace DualStore.Decimal

/-- A finite double: the magnitude is `mantissa * 2 ^ exponent`; `narrow` says that the double below
it is only half as far away as the one above. -/
structure Binary where
  negative : Bool
  mantissa : Nat
  exponent : Int
  narrow : Bool
  deriving DecidableEq, Repr

def Binary.ofBits (bits : Nat) : Binary :=
  let fraction : Nat := bits % Nat.pow 2 52
  let biased : Nat := bits / Nat.pow 2 52 % Nat.pow 2 11
  let negative : Bool := bits / Nat.pow 2 63 = 1
  if biased = 0 then ⟨negative, fraction, -1074, false⟩
  else ⟨negative, fraction + Nat.pow 2 52, (biased : Int) - 1075, fraction = 0 && 1 < biased⟩

def Binary.ofFloat (x : Float) : Binary := .ofBits x.toBits.toNat

def isFinite (x : Float) : Bool :=
  x.toBits.toNat / Nat.pow 2 52 % Nat.pow 2 11 ≠ Nat.pow 2 11 - 1

def isNaN (x : Float) : Bool := !isFinite x && x.toBits.toNat % Nat.pow 2 52 ≠ 0

/-- `n * 2 ^ e` as numerator and denominator. -/
def scaled (n : Nat) (e : Int) : Nat × Nat :=
  match e with
  | .ofNat k => (n * Nat.pow 2 k, 1)
  | .negSucc k => (n, Nat.pow 2 (k + 1))

/-- The magnitude as numerator and denominator. -/
def Binary.ratio (b : Binary) : Nat × Nat := scaled b.mantissa b.exponent

def compareInt (n : Int) (x : Float) : Ordering :=
  let b := Binary.ofFloat x
  let top : Int := if b.negative then -(b.ratio.1 : Int) else b.ratio.1
  compare (n * b.ratio.2) top

/-- Whether a double is a whole number, and which. -/
def whole? (x : Float) : Option Int :=
  let b := Binary.ofFloat x
  if isFinite x && b.ratio.1 % b.ratio.2 = 0 then
    let n : Int := (b.ratio.1 / b.ratio.2 : Nat)
    some (if b.negative then -n else n)
  else none

example : whole? (-3.0) = some (-3) ∧ whole? 0.5 = none := by decide

end DualStore.Decimal
