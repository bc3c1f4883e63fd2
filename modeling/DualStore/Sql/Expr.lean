import DualStore.Sql.Token

/-!
# Expressions of statements

Expressions over columns, and their reading from tokens: parentheses bind first, then comparisons,
then `not`, then `and`, then `or`.

* `Expr`: expressions, over any way to name a column;
* `readExpr`: an expression of at most so many levels of parentheses, and what follows it.
-/

namespace DualStore.Sql

inductive CompareOp where
  | eq
  | ne
  | lt
  | le
  | gt
  | ge
  deriving DecidableEq, Repr

/-- An expression whose columns are named by `κ`. -/
inductive Expr (κ : Type) where
  | column (name : κ)
  | value (d : Datum)
  | call (function : String) (arguments : List (Expr κ))
  | compare (op : CompareOp) (a b : Expr κ)
  | isNull (negated : Bool) (a : Expr κ)
  | between (negated : Bool) (a low high : Expr κ)
  | isIn (negated : Bool) (a : Expr κ) (items : List (Expr κ))
  | like (negated : Bool) (a pattern : Expr κ)
  | not (a : Expr κ)
  | and (a b : Expr κ)
  | or (a b : Expr κ)

/-- A column as it is written: the name of a table, which may be missing, and a name. -/
structure ColumnName where
  table : Option String
  name : String
  deriving DecidableEq, Repr

/-- The small letters of a name; names are the same whatever the case of their ASCII letters. -/
def foldCase (s : String) : String := String.ofList (s.toList.map Char.toLower)

def Token.isWord (word : String) : Token → Bool
  | .word s => foldCase s = word
  | _ => false

def Token.isMark (mark : String) : Token → Bool
  | .mark s => s = mark
  | _ => false

def afterWord (word : String) : List Token → Option (List Token)
  | t :: rest => if t.isWord word then some rest else none
  | [] => none

def afterMark (mark : String) : List Token → Option (List Token)
  | t :: rest => if t.isMark mark then some rest else none
  | [] => none

def ColumnName.ofWord (s : String) : ColumnName :=
  match (s.toList.reverse.span fun c => c ≠ '.') with
  | (name, '.' :: table) => ⟨some (String.ofList table.reverse), String.ofList name.reverse⟩
  | _ => ⟨none, s⟩

def numberOfWord (negative : Bool) (s : String) : Option Datum :=
  match s.toList with
  | c :: _ => if c.isDigit then readUnsigned? negative s.toList else none
  | [] => none

abbrev Reader (α : Type) := List Token → Option (α × List Token)

/-- One or more parts with a separator between neighbours. -/
def readSeparated {α : Type} (separator : Token → Bool) (part : Reader α) : Nat → Reader (List α)
  | 0, _ => none
  | steps + 1, ts =>
    match part ts with
    | none => none
    | some (a, []) => some ([a], [])
    | some (a, t :: rest) =>
      if separator t then
        (readSeparated separator part steps rest).map fun (more, rest) => (a :: more, rest)
      else some ([a], t :: rest)

/-- Expressions joined from left to right. -/
def combine {κ : Type} (join : Expr κ → Expr κ → Expr κ) : List (Expr κ) → Option (Expr κ)
  | [] => none
  | [a] => some a
  | a :: b :: rest => (combine join (b :: rest)).map (join a)

/-- Items between parentheses; the opening one has been read. -/
def readItems (inner : Reader (Expr ColumnName)) (ts : List Token) :
    Option (List (Expr ColumnName) × List Token) := do
  let (items, rest) ← readSeparated (Token.isMark ",") inner (ts.length + 1) ts
  let rest ← afterMark ")" rest
  some (items, rest)

def readOperand (inner : Reader (Expr ColumnName)) : Reader (Expr ColumnName)
  | [] => none
  | .parameter d :: rest => some (.value d, rest)
  | .text s :: rest => some (.value (.text s), rest)
  | .quoted s :: rest => some (.column ⟨none, s⟩, rest)
  | .word s :: .mark "(" :: rest =>
    match rest with
    | .mark "*" :: .mark ")" :: rest => some (.call (foldCase s) [], rest)
    | _ => (readItems inner rest).map fun (items, rest) => (.call (foldCase s) items, rest)
  | .word s :: rest =>
    match numberOfWord false s with
    | some d => some (.value d, rest)
    | none =>
      if foldCase s = "null" then some (.value .null, rest) else some (.column (.ofWord s), rest)
  | .mark "-" :: .word s :: rest => (numberOfWord true s).map fun d => (.value d, rest)
  | .mark "(" :: rest =>
    match inner rest with
    | some (e, .mark ")" :: rest) => some (e, rest)
    | _ => none
  | _ => none

def CompareOp.ofMark? (s : String) : Option CompareOp :=
  if s = "=" then some .eq
  else if s = "<>" then some .ne
  else if s = "<" then some .lt
  else if s = "<=" then some .le
  else if s = ">" then some .gt
  else if s = ">=" then some .ge
  else none

/-- What follows an operand: a comparison with a word, which may be turned around. -/
def readWordTest (inner : Reader (Expr ColumnName)) (a : Expr ColumnName) (negated : Bool)
    (ts : List Token) : Option (Expr ColumnName × List Token) :=
  match ts with
  | [] => none
  | t :: rest =>
    if t.isWord "between" then do
      let (low, rest) ← readOperand inner rest
      let rest ← afterWord "and" rest
      let (high, rest) ← readOperand inner rest
      some (.between negated a low high, rest)
    else if t.isWord "in" then do
      let rest ← afterMark "(" rest
      let (items, rest) ← readItems inner rest
      some (.isIn negated a items, rest)
    else if t.isWord "like" then do
      let (pattern, rest) ← readOperand inner rest
      some (.like negated a pattern, rest)
    else none

/-- A comparison, or a mere operand. -/
def readComparison (inner : Reader (Expr ColumnName)) (ts : List Token) :
    Option (Expr ColumnName × List Token) :=
  match readOperand inner ts with
  | none => none
  | some (a, []) => some (a, [])
  | some (a, t :: rest) =>
    match t with
    | .mark s =>
      match CompareOp.ofMark? s with
      | some op => (readOperand inner rest).map fun (b, rest) => (.compare op a b, rest)
      | none => some (a, t :: rest)
    | .word _ =>
      if t.isWord "is" then
        match afterWord "null" rest with
        | some rest => some (.isNull false a, rest)
        | none => do
          let rest ← afterWord "not" rest
          let rest ← afterWord "null" rest
          some (.isNull true a, rest)
      else if t.isWord "not" then readWordTest inner a true rest
      else if t.isWord "between" || t.isWord "in" || t.isWord "like" then
        readWordTest inner a false (t :: rest)
      else some (a, t :: rest)
    | _ => some (a, t :: rest)

/-- A comparison behind any number of words `not`. -/
def readNot (inner : Reader (Expr ColumnName)) : Nat → Reader (Expr ColumnName)
  | 0, _ => none
  | steps + 1, ts =>
    match afterWord "not" ts with
    | some rest => (readNot inner steps rest).map fun (e, rest) => (.not e, rest)
    | none => readComparison inner ts

def readAnd (inner : Reader (Expr ColumnName)) (ts : List Token) :
    Option (Expr ColumnName × List Token) := do
  let (parts, rest) ←
    readSeparated (Token.isWord "and") (fun ts => readNot inner (ts.length + 1) ts)
      (ts.length + 1) ts
  let e ← combine .and parts
  some (e, rest)

def readOr (inner : Reader (Expr ColumnName)) (ts : List Token) :
    Option (Expr ColumnName × List Token) := do
  let (parts, rest) ← readSeparated (Token.isWord "or") (readAnd inner) (ts.length + 1) ts
  let e ← combine .or parts
  some (e, rest)

/-- An expression of at most so many levels of parentheses. -/
def readExpr : Nat → Reader (Expr ColumnName)
  | 0 => fun _ => none
  | levels + 1 => readOr (readExpr levels)

/-- An expression at the front of tokens; there are no more levels than tokens. -/
def readExpression (ts : List Token) : Option (Expr ColumnName × List Token) :=
  readExpr (ts.length + 1) ts

end DualStore.Sql
