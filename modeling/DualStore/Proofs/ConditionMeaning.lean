import DualStore.Proofs.PredicateReading
import DualStore.Sql.Eval

/-!
# What conditions say

The meaning of conditions, said of the conditions themselves. Every condition on a key is an atomic
predicate; an assignment gives each atomic predicate a truth value, which may be unknown. All
conditions of a list have to hold, and a disjunction holds if all conditions of one of its groups
do. A group in which no condition says anything is left out, and so is a disjunction of such groups.

* `Condition.contributes`: whether a condition says anything;
* `atom?`, `Condition.truth`, `Condition.allTruth`: the meaning under an assignment;
* `Condition.values`, `Condition.allValues`: the operand values, in depth-first order;
* `Condition.hasPlainKeys`: whether the keys are plain, at any depth;
* `truth`: the meaning of an expression under an assignment.
-/

namespace DualStore.Relational

open Sql

/-- A truth value for every atomic predicate; none is unknown. -/
abbrev Assignment := Expr ColumnName → Option Bool

/-- The truth of an expression: everything but a connective is atomic. -/
def truth (v : Assignment) : Expr ColumnName → Option Bool
  | .and a b => andTruth (truth v a) (truth v b)
  | .or a b => orTruth (truth v a) (truth v b)
  | .not a => notTruth (truth v a)
  | e => v e

/-- The truth of the condition of a statement; without one every row counts. -/
def truthOf (v : Assignment) : Option (Expr ColumnName) → Option Bool
  | none => some true
  | some e => truth v e

/-- The atomic predicate that a marker makes of a key and an operand. -/
def atom? (key : String) : Logic → Operand → Option (Expr ColumnName)
  | .eq, .one v => some (.compare .eq (keyExpr key) (valueExpr v))
  | .notEq, .one v => some (.compare .ne (keyExpr key) (valueExpr v))
  | .lt, .one v => some (.compare .lt (keyExpr key) (valueExpr v))
  | .lte, .one v => some (.compare .le (keyExpr key) (valueExpr v))
  | .gt, .one v => some (.compare .gt (keyExpr key) (valueExpr v))
  | .gte, .one v => some (.compare .ge (keyExpr key) (valueExpr v))
  | .isNull, _ => some (.isNull false (keyExpr key))
  | .isNotNull, _ => some (.isNull true (keyExpr key))
  | .between, .range low high =>
    some (.between false (keyExpr key) (valueExpr low) (valueExpr high))
  | .notBetween, .range low high =>
    some (.between true (keyExpr key) (valueExpr low) (valueExpr high))
  | .isIn, .many values => some (.isIn false (keyExpr key) (values.map valueExpr))
  | .notIn, .many values => some (.isIn true (keyExpr key) (values.map valueExpr))
  | .like, .one v =>
    some (.like false (keyExpr key)
      (.call "concat" [.value (.text "%"), valueExpr v, .value (.text "%")]))
  | .notLike, .one v =>
    some (.like true (keyExpr key)
      (.call "concat" [.value (.text "%"), valueExpr v, .value (.text "%")]))
  | _, _ => none

/-- The values that a condition on a key hands over; a test for null has none. -/
def operandValues : Logic → Operand → List Value
  | .isNull, _ => []
  | .isNotNull, _ => []
  | _, .none => []
  | _, .one v => [v]
  | _, .range low high => [low, high]
  | _, .many values => values

end DualStore.Relational

namespace DualStore.Condition

open Relational Sql

mutual

/-- Whether a condition says anything: every one does but a disjunction of empty groups. -/
def contributes : Condition → Bool
  | .group .or _ members _ => anyMemberContributes members
  | _ => true

def anyContributes : List Condition → Bool
  | [] => false
  | c :: rest => contributes c || anyContributes rest

def anyMemberContributes : List (List Condition) → Bool
  | [] => false
  | member :: rest => anyContributes member || anyMemberContributes rest

end

mutual

def truth (v : Assignment) : Condition → Option Bool
  | .on logic key operand => (atom? key logic operand).elim (some true) v
  | .group .or _ members _ => someMemberTruth v members
  | .group logic key _ _ => (atom? key logic .none).elim (some true) v

/-- The truth of the conjunction of conditions, in their order. -/
def allTruth (v : Assignment) : List Condition → Option Bool
  | [] => some true
  | c :: rest =>
    if contributes c then andTruth (truth v c) (allTruth v rest) else allTruth v rest

/-- The truth of the disjunction of groups, each of which is a conjunction. -/
def someMemberTruth (v : Assignment) : List (List Condition) → Option Bool
  | [] => some false
  | member :: rest =>
    if anyContributes member then orTruth (allTruth v member) (someMemberTruth v rest)
    else someMemberTruth v rest

end

mutual

/-- The operand values of a condition, in depth-first order. -/
def values : Condition → List Value
  | .on logic _ operand => operandValues logic operand
  | .group .or _ members _ => memberValues members
  | .group _ _ _ _ => []

def allValues : List Condition → List Value
  | [] => []
  | c :: rest => values c ++ allValues rest

def memberValues : List (List Condition) → List Value
  | [] => []
  | member :: rest => allValues member ++ memberValues rest

end

mutual

/-- Whether the key of a condition is plain, or the keys in a disjunction are. -/
def hasPlainKeys : Condition → Bool
  | .group .or _ members _ => membersHavePlainKeys members
  | .on _ key _ => isPlain key
  | .group _ key _ _ => isPlain key

def allHavePlainKeys : List Condition → Bool
  | [] => true
  | c :: rest => hasPlainKeys c && allHavePlainKeys rest

def membersHavePlainKeys : List (List Condition) → Bool
  | [] => true
  | member :: rest => allHavePlainKeys member && membersHavePlainKeys rest

end

end DualStore.Condition
