import DualStore.Json.Basic

/-!
# Numbers in JSON texts

A number without fraction and exponent is an integer as long as it fits into 64 bits; every other
number is a double. The double is built from the leading digits that fit into a word of 64 bits and
a power of ten, by one multiplication or by divisions, so it may be a neighbour of the nearest
double; a number beyond the greatest double is refused.

* `absorb`: the digits that fit into the word;
* `assemble`: word and power of ten together;
* `readNumber`: the number at the front of a text, and what follows it.
-/

namespace DualStore.Json

def wordMax : Nat := 18446744073709551615

def digitValue (c : Char) : Nat := c.toNat - 48

/-- Appends digits to a word as long as it holds them; the rest is handed back. -/
def absorb (word : Nat) : List Char → Nat × List Char
  | [] => (word, [])
  | d :: rest =>
    if wordMax < word * 10 + digitValue d then (word, d :: rest)
    else absorb (word * 10 + digitValue d) rest

/-- Divides by ten to the power of a number below the table of powers, in steps of 10^308. -/
def divideDown (x : Float) : Nat → Nat → Float
  | 0, _ => x
  | steps + 1, power =>
    if power ≤ 308 then x / Float.ofScientific 1 false power
    else if x == 0.0 then x
    else divideDown (x / 1e308) steps (power - 308)

/-- A word times a power of ten; nothing if that is beyond the greatest double. -/
def assemble (word : Nat) (power : Int) : Option Float :=
  let x := Float.ofNat word
  match power with
  | .ofNat k =>
    if k ≤ 308 then
      let y := x * Float.ofScientific 1 false k
      if y.isInf then none else some y
    else if word = 0 then some x
    else none
  | .negSucc k => some (divideDown x 8 (k + 1))

/-- The sign of a power of ten, and what follows it. -/
def powerSign : List Char → Bool × List Char
  | '-' :: rest => (true, rest)
  | '+' :: rest => (false, rest)
  | rest => (false, rest)

/-- A word and a power of ten, corrected by the exponent at the front of a text if there is one. -/
def readPower (word : Nat) (power : Int) (cs : List Char) : Option (Float × List Char) :=
  match cs with
  | [] => (assemble word power).map (·, [])
  | c :: after =>
    if c = 'e' ∨ c = 'E' then
      let (down, rest) := powerSign after
      let ds := rest.takeWhile Char.isDigit
      let rest := rest.dropWhile Char.isDigit
      if ds = [] then none
      else
        let n : Nat := Nat.ofDigitChars 10 ds 0
        if 2147483647 < n then
          if word ≠ 0 ∧ down = false then none else some (0.0, rest)
        else (assemble word (if down then power - n else power + n)).map (·, rest)
    else (assemble word power).map (·, c :: after)

/-- The rest of a number that is a double: an optional fraction and an optional exponent. -/
def readFraction (word : Nat) (power : Int) (cs : List Char) : Option (Float × List Char) :=
  match cs with
  | '.' :: after =>
    let ds := after.takeWhile Char.isDigit
    let rest := after.dropWhile Char.isDigit
    if ds = [] then none
    else
      let (word, dropped) := absorb word ds
      readPower word (power - ((ds.length - dropped.length : Nat) : Int)) rest
  | _ => readPower word power cs

def goesOn : List Char → Bool
  | c :: _ => c = '.' || c = 'e' || c = 'E'
  | [] => false

def readMagnitude (negative : Bool) (cs : List Char) : Option (Json × List Char) :=
  let ds := cs.takeWhile Char.isDigit
  let rest := cs.dropWhile Char.isDigit
  let (word, dropped) := absorb 0 ds
  let signed (x : Float) : Json := .float (if negative then -x else x)
  if ds = [] ∨ (ds.head? = some '0' ∧ 1 < ds.length) then none
  else if dropped = [] ∧ goesOn rest = false then
    if negative = false then some (.int word, rest)
    else if word = 0 ∨ Nat.pow 2 63 < word then some (signed (Float.ofNat word), rest)
    else some (.int (-(word : Int)), rest)
  else (readFraction word dropped.length rest).map fun (x, rest) => (signed x, rest)

/-- The number at the front of a text, and what follows it. -/
def readNumber (cs : List Char) : Option (Json × List Char) :=
  match cs with
  | '-' :: rest => readMagnitude true rest
  | _ => readMagnitude false cs

end DualStore.Json
