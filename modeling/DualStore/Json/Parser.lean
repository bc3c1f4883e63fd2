import DualStore.Json.Numeral

/-!
# Reading JSON texts

A reader of JSON by recursive descent. It refuses what a strict reader refuses: text behind the
value, controls in strings, halves of surrogate pairs, commas without a value, and values nested
more than 127 levels deep.

* `readString`: a string and what follows it;
* `readValue`: a value of at most so many levels and what follows it;
* `readRaw?`: a whole text, objects with every key as often as it was written;
* `parse?`: a whole text; of several values for one key the last counts.
-/

namespace DualStore.Json

/-- The blanks allowed between the parts of a text. -/
def isSpace (c : Char) : Bool := c = ' ' || c = '\t' || c = '\n' || c = '\r'

def skip (cs : List Char) : List Char := cs.dropWhile isSpace

/-! ## Strings -/

/-- A part of a string as it is written: a character, or the number of a code unit of 16 bits. -/
inductive Piece where
  | char (c : Char)
  | codeUnit (n : Nat)
  deriving DecidableEq, Repr

def hexValue? (c : Char) : Option Nat :=
  let n := c.toNat
  if 48 ≤ n ∧ n ≤ 57 then some (n - 48)
  else if 97 ≤ n ∧ n ≤ 102 then some (n - 87)
  else if 65 ≤ n ∧ n ≤ 70 then some (n - 55)
  else none

def codeUnit? (a b c d : Char) : Option Nat := do
  let a ← hexValue? a
  let b ← hexValue? b
  let c ← hexValue? c
  let d ← hexValue? d
  some (((a * 16 + b) * 16 + c) * 16 + d)

/-- The character that a letter behind a backslash stands for. -/
def unescape? (c : Char) : Option Char :=
  if c = '\x22' then some '\x22'
  else if c = '\\' then some '\\'
  else if c = '/' then some '/'
  else if c = 'b' then some '\x08'
  else if c = 'f' then some '\x0c'
  else if c = 'n' then some '\n'
  else if c = 'r' then some '\r'
  else if c = 't' then some '\t'
  else none

/-- The parts of a string up to its closing quote, and what follows it. -/
def readPieces : List Char → Option (List Piece × List Char)
  | [] => none
  | '\x22' :: rest => some ([], rest)
  | '\\' :: 'u' :: a :: b :: c :: d :: rest =>
    match codeUnit? a b c d, readPieces rest with
    | some n, some (pieces, after) => some (.codeUnit n :: pieces, after)
    | _, _ => none
  | '\\' :: c :: rest =>
    match unescape? c, readPieces rest with
    | some c, some (pieces, after) => some (.char c :: pieces, after)
    | _, _ => none
  | c :: rest =>
    if c.toNat < 32 ∨ c = '\\' then none
    else
      match readPieces rest with
      | some (pieces, after) => some (.char c :: pieces, after)
      | none => none

/-- The characters of the parts of a string; two code units of a surrogate pair make one, a code
unit of a pair alone makes none. -/
def joinPieces : List Piece → Option (List Char)
  | [] => some []
  | .char c :: rest => (joinPieces rest).map (c :: ·)
  | .codeUnit n :: rest =>
    if n < 0xD800 ∨ 0xDFFF < n then (joinPieces rest).map (Char.ofNat n :: ·)
    else
      match rest with
      | .codeUnit m :: rest =>
        if n < 0xDC00 ∧ 0xDC00 ≤ m ∧ m ≤ 0xDFFF then
          (joinPieces rest).map (Char.ofNat (0x10000 + (n - 0xD800) * 1024 + (m - 0xDC00)) :: ·)
        else none
      | _ => none

/-- A string behind its opening quote, and what follows the closing one. -/
def readString (cs : List Char) : Option (String × List Char) := do
  let (pieces, rest) ← readPieces cs
  let content ← joinPieces pieces
  some (String.ofList content, rest)

/-! ## Values -/

def readScalar : List Char → Option (Json × List Char)
  | 'n' :: 'u' :: 'l' :: 'l' :: rest => some (.null, rest)
  | 't' :: 'r' :: 'u' :: 'e' :: rest => some (.bool true, rest)
  | 'f' :: 'a' :: 'l' :: 's' :: 'e' :: rest => some (.bool false, rest)
  | '\x22' :: rest => (readString rest).map fun (s, rest) => (.str s, rest)
  | cs => readNumber cs

/-- The items of an array from the first one on, and what follows the closing bracket. -/
def readItems (value : List Char → Option (Json × List Char)) :
    Nat → List Char → Option (List Json × List Char)
  | 0, _ => none
  | fuel + 1, cs =>
    match value (skip cs) with
    | none => none
    | some (v, rest) =>
      match skip rest with
      | ',' :: rest => (readItems value fuel rest).map fun (vs, rest) => (v :: vs, rest)
      | ']' :: rest => some ([v], rest)
      | _ => none

def readKey (cs : List Char) : Option (String × List Char) :=
  match skip cs with
  | '\x22' :: rest =>
    match readString rest with
    | none => none
    | some (key, rest) =>
      match skip rest with
      | ':' :: rest => some (key, rest)
      | _ => none
  | _ => none

def readFields (value : List Char → Option (Json × List Char)) :
    Nat → List Char → Option (Fields × List Char)
  | 0, _ => none
  | fuel + 1, cs =>
    match readKey cs with
    | none => none
    | some (key, rest) =>
      match value (skip rest) with
      | none => none
      | some (v, rest) =>
        match skip rest with
        | ',' :: rest => (readFields value fuel rest).map fun (vs, rest) => ((key, v) :: vs, rest)
        | '\x7d' :: rest => some ([(key, v)], rest)
        | _ => none

/-- A value of at most so many levels of arrays and objects, and what follows it. -/
def readValue : Nat → List Char → Option (Json × List Char)
  | 0, cs => readScalar cs
  | levels + 1, cs =>
    match cs with
    | '[' :: rest =>
      match skip rest with
      | ']' :: rest => some (.arr [], rest)
      | rest =>
        (readItems (readValue levels) (rest.length + 1) rest).map fun (vs, rest) => (.arr vs, rest)
    | '\x7b' :: rest =>
      match skip rest with
      | '\x7d' :: rest => some (.obj [], rest)
      | rest =>
        (readFields (readValue levels) (rest.length + 1) rest).map fun (vs, rest) => (.obj vs, rest)
    | _ => readScalar cs

def maxLevels : Nat := 127

/-- Reads a whole text; an object has every key as often as it was written. -/
def readRaw? (s : String) : Option Json :=
  match readValue maxLevels (skip s.toList) with
  | some (value, rest) => if skip rest = [] then some value else none
  | none => none

/-- Reads a whole text; of several values for one key the last counts. -/
def parse? (s : String) : Option Json := (readRaw? s).map merged

end DualStore.Json
