import DualStore.Criteria.Parts

/-!
# Conditions

A condition compares a field with operands, or is a disjunction of groups of conditions. The operand
is kept apart from the marker, so a condition may have an operand that its marker cannot take.

* `Operand`, `Condition`: the data;
* `Condition.describe`: the text of the operand of a condition in a message;
* `Condition.logic`, `Condition.key`: what every condition has.
-/

namespace DualStore

inductive Operand where
  | none
  | one (value : Value)
  | range (low high : Value)
  | many (values : List Value)

/-- A condition on a field, or one whose operand is a list of groups. Inside a group all conditions
have to hold, and of the groups of a disjunction at least one. A group is a criteria: the other
parts of the groups, in their order, appear in messages only. -/
inductive Condition where
  | on (logic : Logic) (key : String) (operand : Operand)
  | group (logic : Logic) (key : String) (members : List (List Condition)) (others : List Parts)

def Operand.describe : Operand → String
  | .none => "None"
  | .one value => "One(" ++ value.describe ++ ")"
  | .range low high => "Range(" ++ low.describe ++ ", " ++ high.describe ++ ")"
  | .many [] => "Many([])"
  | .many (value :: rest) => "Many([" ++ value.describe ++ Value.describeRest rest ++ "])"

namespace Condition

def logic : Condition → Logic
  | .on logic _ _ => logic
  | .group logic _ _ _ => logic

def key : Condition → String
  | .on _ key _ => key
  | .group _ key _ _ => key

mutual

def describe : Condition → String
  | .on _ _ operand => operand.describe
  | .group _ _ members others => "Group(" ++ describeList (describeMembers members others) ++ ")"

def describeAll : List Condition → List String
  | [] => []
  | c :: rest => describeMarker c.logic c.key (describe c) :: describeAll rest

/-- The texts of groups; parts that are not given are those of an empty criteria. -/
def describeMembers : List (List Condition) → List Parts → List String
  | [], _ => []
  | member :: rest, [] => Parts.describe {} (describeAll member) :: describeMembers rest []
  | member :: rest, parts :: others =>
    parts.describe (describeAll member) :: describeMembers rest others

end

/-- The message about a condition whose operand its marker cannot take. -/
def mismatch (c : Condition) : String :=
  "condition " ++ c.logic.label ++ " on '" ++ c.key ++ "' cannot take operand " ++ c.describe

example : (Condition.group .eq "k" [[.on .eq "a" (.one (.integer 1))]] []).describe
    = "Group([Cnd \x7b model: None, conditions: [Condition \x7b logic: Eq, key: \"a\", "
      ++ "operand: One(Integer(1)) \x7d], fields: [], distincts: [], groupbys: [], orderbys: [], "
      ++ "aggregates: [], update_kv: [], pagination: Pagination \x7b page_no: 0, page_size: 0, "
      ++ "page_total: 0, page_count: 0, spilled: false, is_offset: false \x7d, "
      ++ "from: FromCond \x7b table: \"\", alias: \"\" \x7d, joins: [], "
      ++ "cache: CacheConfig \x7b open: false, prefix: \"\", key: \"\", expire: 0 \x7d \x7d])" := by
  decide +kernel

end Condition

end DualStore
