import DualStore.Json.Basic
import DualStore.Model.Field

/-!
# Layouts of entities

The typed shape of an entity. Reading a JSON value by a layout checks the type of every member,
leaves out what is unknown, fills in what is missing, and gives the serialized form of the entity.

* `MemberType`: the types of members;
* `MemberType.read?`, `MemberType.initial`: a value of a type, and the one that stands for a missing
  member;
* `Layout`: a record of members, a bare integer, or any value;
* `Layout.read?`: the serialized form of the entity that a JSON value describes.
-/

namespace DualStore.Model

inductive MemberType where
  | text
  | int (width : IntWidth)
  | float
  | bool
  | list (element : MemberType)
  | map (element : MemberType)
  | optional (inner : MemberType)
  | any
  deriving DecidableEq, Repr

def readAll (read : Json → Option Json) : List Json → Option (List Json)
  | [] => some []
  | v :: rest => do
    let v ← read v
    let rest ← readAll read rest
    some (v :: rest)

def readValues (read : Json → Option Json) : Fields → Option Fields
  | [] => some []
  | (key, v) :: rest => do
    let v ← read v
    let rest ← readValues read rest
    some ((key, v) :: rest)

/-- A value of a type in its serialized form; none if the JSON value is of another type. Integers
are checked for their width, a double may be given as an integer, a map is ordered by key. -/
def MemberType.read? : MemberType → Json → Option Json
  | .text, .str s => some (.str s)
  | .int width, .int n => if Decimal.fitsBits width.bits n then some (.int n) else none
  | .float, .int n => some (.float (Float.ofInt n))
  | .float, .float x => some (.float x)
  | .bool, .bool b => some (.bool b)
  | .list element, .arr items => (readAll (MemberType.read? element) items).map .arr
  | .map element, .obj fields =>
    (readValues (MemberType.read? element) fields).map fun fields => .obj (Keyed.sorted fields)
  | .optional _, .null => some .null
  | .optional inner, v => MemberType.read? inner v
  | .any, v => some v
  | _, _ => none

/-- The value of a missing member. -/
def MemberType.initial : MemberType → Json
  | .text => .str ""
  | .int _ => .int 0
  | .float => .float 0.0
  | .bool => .bool false
  | .list _ => .arr []
  | .map _ => .obj []
  | .optional _ => .null
  | .any => .null

structure Member where
  name : String
  type : MemberType
  deriving DecidableEq, Repr

def readMembers (fields : Fields) : List Member → Option Fields
  | [] => some []
  | member :: rest => do
    let v ← match Keyed.get? member.name fields with
      | some v => member.type.read? v
      | none => some member.type.initial
    let rest ← readMembers fields rest
    some ((member.name, v) :: rest)

/-- The members of a record, read from the items of an array in order; there may be fewer items than
members, but not more. -/
def readPositions : List Json → List Member → Option Fields
  | [], [] => some []
  | _ :: _, [] => none
  | [], member :: rest => do
    let rest ← readPositions [] rest
    some ((member.name, member.type.initial) :: rest)
  | v :: items, member :: rest => do
    let v ← member.type.read? v
    let rest ← readPositions items rest
    some ((member.name, v) :: rest)

inductive Layout where
  | record (members : List Member)
  | integer
  | anything
  deriving DecidableEq, Repr

/-- The serialized form of the entity that a JSON value describes. -/
def Layout.read? : Layout → Json → Option Json
  | .record members, .obj fields => (readMembers fields members).map .obj
  | .record members, .arr items => (readPositions items members).map .obj
  | .record _, _ => none
  | .integer, v => MemberType.read? (.int .w64) v
  | .anything, v => some v

/-- The identity of an entity in serialized form: the member of the given name, or the bare
integer. -/
def Layout.identity (key : String) (entity : Json) : Int :=
  match entity with
  | .int n => n
  | _ => ((entity.field? key).bind Json.asInt64?).getD 0

def Layout.withIdentity (key : String) (id : Int) (entity : Json) : Json :=
  match entity with
  | .obj fields => .obj (Keyed.put key (.int id) fields)
  | .int _ => .int id
  | _ => entity

example : (Layout.record [⟨"id", .int .w64⟩, ⟨"on", .bool⟩]).read?
    (.obj [("id", .int 7), ("x", .null)]) = some (.obj [("id", .int 7), ("on", .bool false)]) := rfl

end DualStore.Model
