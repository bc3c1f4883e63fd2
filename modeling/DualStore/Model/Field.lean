/-!
# Declared fields

What an entity type says about its fields: a name, a kind, and two flags.

* `IntWidth`, `ElementKind`, `FieldKind`: the kinds;
* `FieldKind.ofName?`, `FieldKind.label`: the kind of a written name, and its text in a message;
* `Field`: a declared field.
-/

namespace DualStore.Model

inductive IntWidth where
  | w8
  | w16
  | w32
  | w64
  deriving DecidableEq, Repr

def IntWidth.bits : IntWidth → Nat
  | .w8 => 8
  | .w16 => 16
  | .w32 => 32
  | .w64 => 64

/-- The text of a width in a message about a field. -/
def IntWidth.label : IntWidth → String
  | .w8 => "Int8"
  | .w16 => "Int16"
  | .w32 => "Int32"
  | .w64 => "Int64"

/-- The text of a width in a message about a column. -/
def IntWidth.columnLabel : IntWidth → String
  | .w8 => "int8"
  | .w16 => "int16"
  | .w32 => "int32"
  | .w64 => "int64"

inductive ElementKind where
  | string
  | int (width : IntWidth)
  | any
  deriving DecidableEq, Repr

def ElementKind.label : ElementKind → String
  | .string => "String"
  | .int width => width.label
  | .any => "Any"

inductive FieldKind where
  | string
  | int (width : IntWidth)
  | list (element : ElementKind)
  | map (element : ElementKind)
  | bool
  | float
  deriving DecidableEq, Repr

def FieldKind.label : FieldKind → String
  | .string => "String"
  | .int width => width.label
  | .list element => "Slice(" ++ element.label ++ ")"
  | .map element => "Map(" ++ element.label ++ ")"
  | .bool => "Bool"
  | .float => "Float"

def ElementKind.names : List (String × ElementKind) :=
  [("string", .string), ("int8", .int .w8), ("int16", .int .w16), ("int32", .int .w32),
    ("int64", .int .w64), ("any", .any)]

def FieldKind.names : List (String × FieldKind) :=
  [("string", .string), ("int8", .int .w8), ("int16", .int .w16), ("int32", .int .w32),
    ("int64", .int .w64), ("bool", .bool), ("float", .float)]
    ++ ElementKind.names.map (fun e => ("slice:" ++ e.1, .list e.2))
    ++ ElementKind.names.map (fun e => ("map:" ++ e.1, .map e.2))

def FieldKind.ofName? (name : String) : Option FieldKind := FieldKind.names.lookup name

/-- Whether a column can hold a field of this kind. -/
def FieldKind.isRelational : FieldKind → Bool
  | .bool => false
  | .float => false
  | _ => true

def FieldKind.isInteger : FieldKind → Bool
  | .int _ => true
  | _ => false

/-- A declared field. The name is the key of the field in the serialized entity, the column and the
document field. An ignored field is never stored; a date is kept in a column as a date text. -/
structure Field where
  name : String
  kind : FieldKind
  ignored : Bool := false
  isDate : Bool := false
  deriving DecidableEq, Repr

def Field.find? (name : String) (fields : List Field) : Option Field :=
  fields.find? fun field => field.name = name

/-- The fields that are stored. -/
def Field.persisted (fields : List Field) : List Field := fields.filter fun field => !field.ignored

/-- The fields that are stored in columns. -/
def Field.relational (fields : List Field) : List Field :=
  (Field.persisted fields).filter fun field => field.kind.isRelational

end DualStore.Model
