import DualStore.Sql.Expr

/-!
# Statements read from tokens

* `SelectItem`, `Origin`, `JoinKind`, `Selection`: a select and its parts;
* `Command`: the statements;
* `Command.read?`: the statement that tokens spell.
-/

namespace DualStore.Sql

/-- A selected column: everything, or an expression that may have another name. -/
inductive SelectItem where
  | all
  | expr (e : Expr ColumnName) (shortName : Option String)

/-- A table in a statement, and its other name. -/
structure NamedTable where
  table : String
  shortName : Option String
  deriving DecidableEq, Repr

inductive JoinKind where
  | inner
  | left
  | right
  deriving DecidableEq, Repr

structure JoinedTable where
  kind : JoinKind
  table : NamedTable
  condition : Expr ColumnName

structure OrderKey where
  expr : Expr ColumnName
  descending : Bool

/-- A select: its rows come from tables, or from another select. -/
inductive Selection where
  | ofTables (distinct : Bool) (items : List SelectItem) (first : NamedTable)
      (joins : List JoinedTable) (condition : Option (Expr ColumnName))
      (groups : List (Expr ColumnName)) (order : List OrderKey) (window : Option (Int × Int))
  | ofSelection (items : List SelectItem) (inner : Selection)

inductive Command where
  | select (s : Selection)
  | insert (table : String) (columns : List String) (values : List (Expr ColumnName))
  | update (table : String) (sets : List (String × Expr ColumnName))
      (condition : Option (Expr ColumnName))
  | delete (table : String) (condition : Option (Expr ColumnName))

/-! ## Reading -/

/-- The words that end a list of tables or columns. -/
def clauseWords : List String :=
  ["from", "where", "group", "order", "limit", "on", "join", "left", "right", "inner", "outer",
    "as", "set", "values", "and", "or", "not", "asc", "desc", "having", "union", "select", "by",
    "cross", "natural"]

def readName : List Token → Option (String × List Token)
  | .quoted s :: rest => some (s, rest)
  | .word s :: rest => if foldCase s ∈ clauseWords then none else some (s, rest)
  | _ => none

/-- Another name, with or without the word in front of it. -/
def readAlias (ts : List Token) : Option (Option String × List Token) :=
  match afterWord "as" ts with
  | some rest =>
    match rest with
    | .text s :: rest => some (some s, rest)
    | _ => (readName rest).map fun (s, rest) => (some s, rest)
  | none =>
    match readName ts with
    | some (s, rest) => some (some s, rest)
    | none => some (none, ts)

def readItem (ts : List Token) : Option (SelectItem × List Token) :=
  match ts with
  | .mark "*" :: rest => some (.all, rest)
  | _ => do
    let (e, rest) ← readExpression ts
    let (shortName, rest) ← readAlias rest
    some (.expr e shortName, rest)

def readTable (ts : List Token) : Option (NamedTable × List Token) := do
  let (table, rest) ← readName ts
  let (shortName, rest) ← readAlias rest
  some (⟨table, shortName⟩, rest)

def readJoinWords (ts : List Token) : Option (JoinKind × List Token) :=
  match afterWord "left" ts with
  | some rest => (afterWord "join" rest).map (JoinKind.left, ·)
  | none =>
    match afterWord "right" ts with
    | some rest => (afterWord "join" rest).map (JoinKind.right, ·)
    | none =>
      match afterWord "inner" ts with
      | some rest => (afterWord "join" rest).map (JoinKind.inner, ·)
      | none => (afterWord "join" ts).map (JoinKind.inner, ·)

def readJoins : Nat → List Token → Option (List JoinedTable × List Token)
  | 0, _ => none
  | steps + 1, ts =>
    match readJoinWords ts with
    | none => some ([], ts)
    | some (kind, rest) => do
      let (table, rest) ← readTable rest
      let rest ← afterWord "on" rest
      let (condition, rest) ← readExpression rest
      let (joins, rest) ← readJoins steps rest
      some (⟨kind, table, condition⟩ :: joins, rest)

def readCondition (ts : List Token) : Option (Option (Expr ColumnName) × List Token) :=
  match afterWord "where" ts with
  | none => some (none, ts)
  | some rest => (readExpression rest).map fun (e, rest) => (some e, rest)

def readGroups (ts : List Token) : Option (List (Expr ColumnName) × List Token) :=
  match afterWord "group" ts with
  | none => some ([], ts)
  | some rest => do
    let rest ← afterWord "by" rest
    readSeparated (Token.isMark ",") readExpression (rest.length + 1) rest

def readOrderKey (ts : List Token) : Option (OrderKey × List Token) := do
  let (e, rest) ← readExpression ts
  match afterWord "desc" rest with
  | some rest => some (⟨e, true⟩, rest)
  | none => some (⟨e, false⟩, (afterWord "asc" rest).getD rest)

def readOrder (ts : List Token) : Option (List OrderKey × List Token) :=
  match afterWord "order" ts with
  | none => some ([], ts)
  | some rest => do
    let rest ← afterWord "by" rest
    readSeparated (Token.isMark ",") readOrderKey (rest.length + 1) rest

/-- A whole number with an optional sign. -/
def readInteger : List Token → Option (Int × List Token)
  | .word s :: rest =>
    match numberOfWord false s with
    | some (.integer n) => some (n, rest)
    | _ => none
  | .mark "-" :: .word s :: rest =>
    match numberOfWord true s with
    | some (.integer n) => some (n, rest)
    | _ => none
  | _ => none

/-- A window: how many rows to pass over and how many to take. -/
def readWindow (ts : List Token) : Option (Option (Int × Int) × List Token) :=
  match afterWord "limit" ts with
  | none => some (none, ts)
  | some rest => do
    let (a, rest) ← readInteger rest
    match afterMark "," rest with
    | none => some (some (0, a), rest)
    | some rest => do
      let (b, rest) ← readInteger rest
      some (some (a, b), rest)

/-- A select of at most so many levels, behind its first word. -/
def readSelection : Nat → List Token → Option (Selection × List Token)
  | 0, _ => none
  | levels + 1, ts => do
    let (distinct, ts) :=
      match afterWord "distinct" ts with
      | some rest => (true, rest)
      | none => (false, ts)
    let (items, ts) ← readSeparated (Token.isMark ",") readItem (ts.length + 1) ts
    let ts ← afterWord "from" ts
    match afterMark "(" ts with
    | some rest =>
      let rest ← afterWord "select" rest
      let (inner, rest) ← readSelection levels rest
      let rest ← afterMark ")" rest
      let (_, rest) ← readAlias rest
      if distinct then none else some (.ofSelection items inner, rest)
    | none =>
      let (first, ts) ← readTable ts
      let (joins, ts) ← readJoins (ts.length + 1) ts
      let (condition, ts) ← readCondition ts
      let (groups, ts) ← readGroups ts
      let (order, ts) ← readOrder ts
      let (window, ts) ← readWindow ts
      some (.ofTables distinct items first joins condition groups order window, ts)

def readSet (ts : List Token) : Option ((String × Expr ColumnName) × List Token) := do
  let (column, rest) ← readName ts
  let rest ← afterMark "=" rest
  let (e, rest) ← readExpression rest
  some ((column, e), rest)

namespace Command

/-- A statement that inserts, behind its first word. -/
def readInsert (ts : List Token) : Option (Command × List Token) := do
  let ts ← afterWord "into" ts
  let (table, ts) ← readName ts
  let ts ← afterMark "(" ts
  let (columns, ts) ← readSeparated (Token.isMark ",") readName (ts.length + 1) ts
  let ts ← afterMark ")" ts
  let ts ← afterWord "values" ts
  let ts ← afterMark "(" ts
  let (values, ts) ← readSeparated (Token.isMark ",") readExpression (ts.length + 1) ts
  let ts ← afterMark ")" ts
  some (.insert table columns values, ts)

def readUpdate (ts : List Token) : Option (Command × List Token) := do
  let (table, ts) ← readName ts
  let ts ← afterWord "set" ts
  let (sets, ts) ← readSeparated (Token.isMark ",") readSet (ts.length + 1) ts
  let (condition, ts) ← readCondition ts
  some (.update table sets condition, ts)

def readDelete (ts : List Token) : Option (Command × List Token) := do
  let ts ← afterWord "from" ts
  let (table, ts) ← readName ts
  let (condition, ts) ← readCondition ts
  some (.delete table condition, ts)

/-- The statement at the front of tokens. -/
def readAny (ts : List Token) : Option (Command × List Token) :=
  match ts with
  | [] => none
  | t :: rest =>
    if t.isWord "select" then
      (readSelection (rest.length + 1) rest).map fun (s, rest) => (.select s, rest)
    else if t.isWord "insert" then readInsert rest
    else if t.isWord "update" then readUpdate rest
    else if t.isWord "delete" then readDelete rest
    else none

def read? (ts : List Token) : Option Command :=
  match readAny ts with
  | some (command, []) => some command
  | _ => none

end Command

end DualStore.Sql
