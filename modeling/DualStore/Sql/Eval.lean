import DualStore.Sql.Aggregate
import DualStore.Sql.Expr
import DualStore.Sql.Table
import DualStore.Text.Search
import DualStore.Sorting

/-!
# Values of expressions

Names are looked up before anything is computed; then an expression is computed on a row, or, if it
aggregates, on a group of rows.

* `Scope`, `Scope.find`, `resolve`: the columns in sight, and an expression over their places;
* `likeMatch`: the pattern test;
* `eval`: the value of an expression;
* `holds`: whether a condition is true of a row.
-/

namespace DualStore.Sql

/-- A column in sight: the name of its table in the statement, its own name, its type. -/
structure Visible where
  table : String
  name : String
  affinity : Affinity
  deriving DecidableEq, Repr

/-- The columns in sight, in the order of their values in a row. -/
abbrev Scope := List Visible

structure Place where
  index : Nat
  affinity : Affinity
  deriving DecidableEq, Repr

def Visible.isNamed (v : Visible) (c : ColumnName) : Bool :=
  foldCase v.name = foldCase c.name
    && (match c.table with
      | none => true
      | some table => foldCase v.table = foldCase table)

/-- The places of the columns of a name, from a place on. -/
def Scope.places (c : ColumnName) : Nat → Scope → List Place
  | _, [] => []
  | i, v :: rest =>
    if v.isNamed c then ⟨i, v.affinity⟩ :: places c (i + 1) rest else places c (i + 1) rest

/-- The other names of selected columns. -/
abbrev Aliases := List (String × Expr Place)

def Aliases.find? (aliases : Aliases) (name : String) : Option (Expr Place) :=
  (List.find? (fun a => foldCase a.1 = foldCase name) aliases).map Prod.snd

/-- What a name stands for: a column in sight, else a selected column of that other name. -/
def Scope.find (scope : Scope) (aliases : Aliases) (c : ColumnName) :
    Except SqlError (Expr Place) :=
  match scope.places c 0 with
  | [place] => .ok (.column place)
  | _ :: _ :: _ => .error (.query ("ambiguous column name: " ++ c.name))
  | [] =>
    match c.table, aliases.find? c.name with
    | none, some e => .ok e
    | _, _ => .error (.query ("no such column: " ++ c.name))

/-- The functions that make one value of many. -/
def aggregateNames : List String := ["count", "sum", "avg", "min", "max"]

def checkCall (function : String) (arguments : Nat) : Except SqlError Unit :=
  if function = "concat" then
    if arguments = 0 then .error (.query "wrong number of arguments to function") else .ok ()
  else if function = "count" then
    if arguments ≤ 1 then .ok () else .error (.query "wrong number of arguments to function")
  else if function ∈ aggregateNames then
    if arguments = 1 then .ok () else .error (.query "wrong number of arguments to function")
  else .error (.query ("no such function: " ++ function))

mutual

/-- An expression with every name replaced by what it stands for. -/
def resolve (find : ColumnName → Except SqlError (Expr Place)) :
    Expr ColumnName → Except SqlError (Expr Place)
  | .column c => find c
  | .value d => .ok (.value d)
  | .call function arguments => do
    checkCall function arguments.length
    let arguments ← resolveAll find arguments
    .ok (.call function arguments)
  | .compare op a b => do
    let a ← resolve find a
    let b ← resolve find b
    .ok (.compare op a b)
  | .isNull negated a => do
    let a ← resolve find a
    .ok (.isNull negated a)
  | .between negated a low high => do
    let a ← resolve find a
    let low ← resolve find low
    let high ← resolve find high
    .ok (.between negated a low high)
  | .isIn negated a items => do
    let a ← resolve find a
    let items ← resolveAll find items
    .ok (.isIn negated a items)
  | .like negated a pattern => do
    let a ← resolve find a
    let pattern ← resolve find pattern
    .ok (.like negated a pattern)
  | .not a => do
    let a ← resolve find a
    .ok (.not a)
  | .and a b => do
    let a ← resolve find a
    let b ← resolve find b
    .ok (.and a b)
  | .or a b => do
    let a ← resolve find a
    let b ← resolve find b
    .ok (.or a b)

def resolveAll (find : ColumnName → Except SqlError (Expr Place)) :
    List (Expr ColumnName) → Except SqlError (List (Expr Place))
  | [] => .ok []
  | e :: rest => do
    let e ← resolve find e
    let rest ← resolveAll find rest
    .ok (e :: rest)

end

theorem resolve_value (find : ColumnName → Except SqlError (Expr Place)) (d : Datum) :
    resolve find (.value d) = .ok (.value d) := by
  rw [resolve]

mutual

def placesOf : Expr Place → List Nat
  | .column place => [place.index]
  | .value _ => []
  | .call _ arguments => placesOfAll arguments
  | .compare _ a b => placesOf a ++ placesOf b
  | .isNull _ a => placesOf a
  | .between _ a low high => placesOf a ++ placesOf low ++ placesOf high
  | .isIn _ a items => placesOf a ++ placesOfAll items
  | .like _ a pattern => placesOf a ++ placesOf pattern
  | .not a => placesOf a
  | .and a b => placesOf a ++ placesOf b
  | .or a b => placesOf a ++ placesOf b

def placesOfAll : List (Expr Place) → List Nat
  | [] => []
  | e :: rest => placesOf e ++ placesOfAll rest

end

mutual

/-- The calls in an expression that aggregate, from left to right. -/
def aggregates : Expr Place → List (String × List (Expr Place))
  | .column _ => []
  | .value _ => []
  | .call function arguments =>
    if function ∈ aggregateNames then [(function, arguments)] else aggregatesOfAll arguments
  | .compare _ a b => aggregates a ++ aggregates b
  | .isNull _ a => aggregates a
  | .between _ a low high => aggregates a ++ aggregates low ++ aggregates high
  | .isIn _ a items => aggregates a ++ aggregatesOfAll items
  | .like _ a pattern => aggregates a ++ aggregates pattern
  | .not a => aggregates a
  | .and a b => aggregates a ++ aggregates b
  | .or a b => aggregates a ++ aggregates b

def aggregatesOfAll : List (Expr Place) → List (String × List (Expr Place))
  | [] => []
  | e :: rest => aggregates e ++ aggregatesOfAll rest

end

theorem aggregates_value (d : Datum) : aggregates (.value d) = [] := by
  rw [aggregates]

/-- An expression that must not aggregate. -/
def resolvePlain (find : ColumnName → Except SqlError (Expr Place)) (e : Expr ColumnName) :
    Except SqlError (Expr Place) := do
  let e ← resolve find e
  if (aggregates e).isEmpty then .ok e else .error (.query "misuse of aggregate")

/-! ## Values -/

/-- The truth of a value; null is neither true nor false. -/
def Datum.truth : Datum → Option Bool
  | .null => none
  | .integer n => some (n ≠ 0)
  | .real x => some !(x == 0.0)
  | .text s => some !(leadingReal s == 0.0)

def ofTruth : Option Bool → Datum
  | none => .null
  | some true => .integer 1
  | some false => .integer 0

def notTruth (a : Option Bool) : Option Bool := a.map fun b => !b

/-- Conjunction with an unknown: false if a part is false. -/
def andTruth : Option Bool → Option Bool → Option Bool
  | some false, _ => some false
  | _, some false => some false
  | some true, some true => some true
  | _, _ => none

/-- Disjunction with an unknown: true if a part is true. -/
def orTruth : Option Bool → Option Bool → Option Bool
  | some true, _ => some true
  | _, some true => some true
  | some false, some false => some false
  | _, _ => none

def CompareOp.accepts : CompareOp → Ordering → Bool
  | .eq, o => o = .eq
  | .ne, o => o ≠ .eq
  | .lt, o => o = .lt
  | .le, o => o ≠ .gt
  | .gt, o => o = .gt
  | .ge, o => o ≠ .lt

/-- A comparison of two typed values; unknown if one is null. -/
def compareSides (op : CompareOp) (a b : Affinity × Datum) : Option Bool :=
  let (x, y) := convertSides a b
  (x.compare? y).map op.accepts

def betweenSides (a low high : Affinity × Datum) : Option Bool :=
  andTruth (compareSides .ge a low) (compareSides .le a high)

/-- Whether a value is one of some: unknown if it is none of them and a comparison is unknown. The
type of the value alone decides about conversions. -/
def inSides (a : Affinity × Datum) (items : List Datum) : Option Bool :=
  items.foldl (fun acc d => orTruth acc (compareSides .eq a (.none, d))) (some false)

/-- Whether a test holds of the text or of a part of it that is cut off in front. -/
def anySuffix (test : List Char → Bool) : List Char → Bool
  | [] => test []
  | c :: rest => test (c :: rest) || anySuffix test rest

/-- The pattern test: a percent sign stands for any text, an underscore for one character, and every
other character for itself, ASCII letters whatever their case. -/
def likeMatch : List Char → List Char → Bool
  | [] => fun s => s.isEmpty
  | p :: rest =>
    let next := likeMatch rest
    if p = '%' then anySuffix next
    else fun s =>
      match s with
      | [] => false
      | c :: s => (p = '_' || c.toLower = p.toLower) && next s

def likeSides (a pattern : Datum) : Option Bool :=
  if a.isNull || pattern.isNull then none
  else some (likeMatch pattern.asText.toList a.asText.toList)

/-- A truth value, turned around if it is negated. -/
def negateIf (negated : Bool) (t : Option Bool) : Option Bool := if negated then notTruth t else t

/-- The type of an expression: a column prefers the type that it was declared with. -/
def affinityOf : Expr Place → Affinity
  | .column place => place.affinity
  | _ => .none

/-- What a function makes of the values of its argument on the rows of a group. -/
def aggregateValue (function : String) (values : List Datum) : Except SqlError Datum :=
  if function = "count" then .ok (.integer (values.filter fun d => !d.isNull).length)
  else if function = "sum" then
    match (values.foldl Sum.add {}).result with
    | some d => .ok d
    | none => .error (.interrupted "integer overflow")
  else if function = "avg" then .ok (values.foldl Sum.add {}).mean
  else if function = "min" then .ok (extremum .lt .null values)
  else .ok (extremum .gt .null values)

def onRows (f : Row → Except SqlError Datum) : List Row → Except SqlError (List Datum)
  | [] => .ok []
  | row :: rest => do
    let d ← f row
    let ds ← onRows f rest
    .ok (d :: ds)

mutual

/-- The value of an expression on a row; calls that aggregate look at the rows of the group. -/
def eval (group : List Row) (row : Row) : Expr Place → Except SqlError Datum
  | .column place => .ok ((row[place.index]?).getD .null)
  | .value d => .ok d
  | .call "concat" arguments => do
    let values ← evalAll group row arguments
    .ok (.text (values.foldl (fun s d => s ++ d.asText) ""))
  | .call function [] =>
    if function = "count" then .ok (.integer group.length) else .error (.query "misuse of function")
  | .call function (argument :: _) => do
    let values ← onRows (fun row => eval [] row argument) group
    aggregateValue function values
  | .compare op a b => do
    let x ← eval group row a
    let y ← eval group row b
    .ok (ofTruth (compareSides op (affinityOf a, x) (affinityOf b, y)))
  | .isNull negated a => do
    let x ← eval group row a
    .ok (ofTruth (negateIf negated (some x.isNull)))
  | .between negated a low high => do
    let x ← eval group row a
    let l ← eval group row low
    let h ← eval group row high
    .ok (ofTruth (negateIf negated
      (betweenSides (affinityOf a, x) (affinityOf low, l) (affinityOf high, h))))
  | .isIn negated a items => do
    let x ← eval group row a
    let values ← evalAll group row items
    .ok (ofTruth (negateIf negated (inSides (affinityOf a, x) values)))
  | .like negated a pattern => do
    let x ← eval group row a
    let p ← eval group row pattern
    .ok (ofTruth (negateIf negated (likeSides x p)))
  | .not a => do
    let x ← eval group row a
    .ok (ofTruth (notTruth x.truth))
  | .and a b => do
    let x ← eval group row a
    let y ← eval group row b
    .ok (ofTruth (andTruth x.truth y.truth))
  | .or a b => do
    let x ← eval group row a
    let y ← eval group row b
    .ok (ofTruth (orTruth x.truth y.truth))

def evalAll (group : List Row) (row : Row) : List (Expr Place) → Except SqlError (List Datum)
  | [] => .ok []
  | e :: rest => do
    let d ← eval group row e
    let ds ← evalAll group row rest
    .ok (d :: ds)

end

theorem eval_value (group : List Row) (row : Row) (d : Datum) :
    eval group row (.value d) = .ok d := by
  rw [eval]

/-- Whether a condition is true of a row; without a condition every row counts. -/
def holds (condition : Option (Expr Place)) (row : Row) : Except SqlError Bool :=
  match condition with
  | none => .ok true
  | some e => (eval [] row e).map fun d => d.truth = some true

def filterRows (condition : Option (Expr Place)) : List Row → Except SqlError (List Row)
  | [] => .ok []
  | row :: rest => do
    let keep ← holds condition row
    let kept ← filterRows condition rest
    .ok (if keep then row :: kept else kept)

end DualStore.Sql
