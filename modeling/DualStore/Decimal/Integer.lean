/-!
# Whole numbers in decimal

Integers and their decimal texts, and the ranges of the fixed-width integers.

* `digits`, `intChars`, `intText`: writing;
* `readNat?`, `readInt64?`: reading, the second with an optional sign and within 64 bits;
* `fitsBits`, `fitsInt64`, `clampInt64`: the two's complement ranges;
* `readNat?_digits`: digits read back as the number they were written for.
-/

namespace DualStore.Decimal

/-- The decimal digits of a number, without leading zeros. -/
def digits (n : Nat) : List Char := Nat.toDigits 10 n

def intChars : Int → List Char
  | .ofNat n => digits n
  | .negSucc n => '-' :: digits (n + 1)

def intText (n : Int) : String := String.ofList (intChars n)

/-- Reads one or more decimal digits; leading zeros count for nothing. -/
def readNat? (cs : List Char) : Option Nat :=
  if cs ≠ [] ∧ cs.all Char.isDigit = true then some (Nat.ofDigitChars 10 cs 0) else none

theorem digits_ne_nil (n : Nat) : digits n ≠ [] := Nat.toDigits_ne_nil

theorem all_isDigit_digits (n : Nat) : (digits n).all Char.isDigit = true := by
  rw [List.all_eq_true]
  intro c hc
  exact Nat.isDigit_of_mem_toDigits (by decide) (by decide) hc

@[simp] theorem readNat?_digits (n : Nat) : readNat? (digits n) = some n := by
  rw [readNat?, if_pos ⟨digits_ne_nil n, all_isDigit_digits n⟩, digits,
    Nat.ofDigitChars_ten_toDigits]

/-! ## Ranges -/

/-- Whether an integer fits into a two's complement word of so many bits. -/
def fitsBits (bits : Nat) (n : Int) : Bool :=
  -(Nat.pow 2 (bits - 1) : Int) ≤ n && n < (Nat.pow 2 (bits - 1) : Int)

def fitsInt64 (n : Int) : Bool := fitsBits 64 n

def int64Max : Int := 9223372036854775807

def int64Min : Int := -9223372036854775808

theorem fitsInt64_iff {n : Int} : fitsInt64 n = true ↔ int64Min ≤ n ∧ n ≤ int64Max := by
  simp only [fitsInt64, fitsBits, Bool.and_eq_true, decide_eq_true_eq, int64Min, int64Max,
    Nat.pow_eq]
  omega

/-- The integer of 64 bits nearest to `n`. -/
def clampInt64 (n : Int) : Int :=
  if n < int64Min then int64Min else if int64Max < n then int64Max else n

/-- Reads an integer of 64 bits: an optional sign of either kind, then digits. -/
def readInt64? (cs : List Char) : Option Int :=
  let value : Option Int :=
    match cs with
    | '-' :: rest => (readNat? rest).map fun n => -(n : Int)
    | '+' :: rest => (readNat? rest).map fun n => (n : Int)
    | _ => (readNat? cs).map fun n => (n : Int)
  value.filter fitsInt64

example : readInt64? ['-', '0', '7'] = some (-7) ∧ readInt64? ['+', '5'] = some 5 := by decide

example : readInt64? [] = none ∧ readInt64? ['-'] = none ∧ readInt64? ['1', '.', '0'] = none :=
  by decide

end DualStore.Decimal
