/-!
# Markers of a criteria

One word for each comparison, order, join and aggregate.

* `Logic`: the markers;
* `Logic.name`, `Logic.ofName?`: the written name of a marker, and back;
* `Logic.label`: the text of a marker in a message;
* `Logic.isJoin`, `Logic.isAggregate`: two groups of them.
-/

namespace DualStore

/-- A comparison, an order, a join or an aggregate. -/
inductive Logic where
  | eq
  | notEq
  | lt
  | lte
  | gt
  | gte
  | isNull
  | isNotNull
  | between
  | notBetween
  | isIn
  | notIn
  | like
  | notLike
  | or
  | asc
  | desc
  | left
  | right
  | inner
  | sum
  | avg
  | min
  | max
  deriving DecidableEq, Repr

namespace Logic

def all : List Logic :=
  [eq, notEq, lt, lte, gt, gte, isNull, isNotNull, between, notBetween, isIn, notIn, like, notLike,
    or, asc, desc, left, right, inner, sum, avg, min, max]

def name : Logic → String
  | eq => "eq"
  | notEq => "not_eq"
  | lt => "lt"
  | lte => "lte"
  | gt => "gt"
  | gte => "gte"
  | isNull => "is_null"
  | isNotNull => "is_not_null"
  | between => "between"
  | notBetween => "not_between"
  | isIn => "in"
  | notIn => "not_in"
  | like => "like"
  | notLike => "not_like"
  | or => "or"
  | asc => "asc"
  | desc => "desc"
  | left => "left"
  | right => "right"
  | inner => "inner"
  | sum => "sum"
  | avg => "avg"
  | min => "min"
  | max => "max"

def ofName? (s : String) : Option Logic := all.find? fun l => l.name = s

/-- The text of a marker in a message. -/
def label : Logic → String
  | eq => "Eq"
  | notEq => "NotEq"
  | lt => "Lt"
  | lte => "Lte"
  | gt => "Gt"
  | gte => "Gte"
  | isNull => "IsNull"
  | isNotNull => "IsNotNull"
  | between => "Between"
  | notBetween => "NotBetween"
  | isIn => "In"
  | notIn => "NotIn"
  | like => "Like"
  | notLike => "NotLike"
  | or => "Or"
  | asc => "Asc"
  | desc => "Desc"
  | left => "Left"
  | right => "Right"
  | inner => "Inner"
  | sum => "Sum"
  | avg => "Avg"
  | min => "Min"
  | max => "Max"

def isJoin : Logic → Bool
  | left => true
  | right => true
  | inner => true
  | _ => false

def isAggregate : Logic → Bool
  | sum => true
  | avg => true
  | min => true
  | max => true
  | _ => false

end Logic

end DualStore
