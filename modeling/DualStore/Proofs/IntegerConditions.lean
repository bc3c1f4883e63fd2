import DualStore.Proofs.ConditionMeaning

/-!
# Conditions on integers

Conditions that compare integer fields with integers, and what they say of the values of the fields,
without rows and without documents.

* `Logic.takes`, `Logic.accepts`: integer operands that a marker takes, and the integers that it
  then accepts;
* `Condition.Compares`, `Condition.AllCompare`: conditions of such markers, in which no conjunction
  names a field twice;
* `Condition.meets`, `Condition.allMeet`: whether integers meet conditions.
-/

namespace DualStore

/-- Whether a value is an integer of 64 bits. -/
def Value.isInt64 : Value → Bool
  | .integer n => Decimal.fitsInt64 n
  | _ => false

/-- Whether a value is the given integer. -/
def Value.isInteger (x : Int) : Value → Bool
  | .integer n => x = n
  | _ => false

theorem Value.eq_integer {v : Value} (h : v.isInt64 = true) : ∃ n, v = .integer n := by
  cases v with
  | integer n => exact ⟨n, rfl⟩
  | _ => simp [Value.isInt64] at h

namespace Logic

/-- Whether a marker compares with an operand of integers; a list must not be empty. -/
def takes : Logic → Operand → Bool
  | .eq, .one v => v.isInt64
  | .notEq, .one v => v.isInt64
  | .lt, .one v => v.isInt64
  | .lte, .one v => v.isInt64
  | .gt, .one v => v.isInt64
  | .gte, .one v => v.isInt64
  | .between, .range low high => low.isInt64 && high.isInt64
  | .isIn, .many values => !values.isEmpty && values.all Value.isInt64
  | .notIn, .many values => !values.isEmpty && values.all Value.isInt64
  | .isNull, _ => true
  | .isNotNull, _ => true
  | _, _ => false

/-- Whether a marker with an operand of integers accepts an integer. -/
def accepts (x : Int) : Logic → Operand → Bool
  | .eq, .one (.integer n) => x = n
  | .notEq, .one (.integer n) => x ≠ n
  | .lt, .one (.integer n) => x < n
  | .lte, .one (.integer n) => x ≤ n
  | .gt, .one (.integer n) => n < x
  | .gte, .one (.integer n) => n ≤ x
  | .between, .range (.integer low) (.integer high) => low ≤ x ∧ x ≤ high
  | .isIn, .many values => values.any (Value.isInteger x)
  | .notIn, .many values => !values.any (Value.isInteger x)
  | .isNotNull, _ => true
  | _, _ => false

end Logic

namespace Condition

/-- The keys of the conditions that are no disjunctions. -/
def fieldKeys : List Condition → List String
  | [] => []
  | .on _ key _ :: rest => key :: fieldKeys rest
  | .group _ _ _ _ :: rest => fieldKeys rest

mutual

/-- A condition that compares fields with integers, or a disjunction of groups of such. -/
def Compares (isField : String → Prop) : Condition → Prop
  | .on logic key operand => isField key ∧ logic.takes operand = true
  | .group .or _ members _ => MembersCompare isField members
  | .group _ _ _ _ => False

/-- Conditions that compare fields with integers, no field twice. -/
def AllCompare (isField : String → Prop) : List Condition → Prop
  | [] => True
  | c :: rest => Compares isField c ∧ (fieldKeys (c :: rest)).Nodup ∧ AllCompare isField rest

/-- Groups of conditions that compare fields with integers, in no group a field twice. -/
def MembersCompare (isField : String → Prop) : List (List Condition) → Prop
  | [] => True
  | member :: rest => AllCompare isField member ∧ MembersCompare isField rest

end

mutual

/-- Whether the values of fields meet a condition. -/
def meets (value : String → Int) : Condition → Bool
  | .on logic key operand => logic.accepts (value key) operand
  | .group .or _ members _ => someMeet value members
  | .group _ _ _ _ => true

/-- Whether the values of fields meet all conditions that say anything. -/
def allMeet (value : String → Int) : List Condition → Bool
  | [] => true
  | c :: rest => (!contributes c || meets value c) && allMeet value rest

/-- Whether the values of fields meet a group in which a condition says anything. -/
def someMeet (value : String → Int) : List (List Condition) → Bool
  | [] => false
  | member :: rest => (anyContributes member && allMeet value member) || someMeet value rest

end

theorem AllCompare.nodup {isField : String → Prop} {conditions : List Condition}
    (h : AllCompare isField conditions) : (fieldKeys conditions).Nodup := by
  cases conditions with
  | nil => simp [fieldKeys]
  | cons c rest =>
    rw [AllCompare] at h
    exact h.2.1

end Condition

end DualStore
