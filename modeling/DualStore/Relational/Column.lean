import DualStore.Json.Parser
import DualStore.Json.Printer
import DualStore.Calendar.Timestamp
import DualStore.Model.Field
import DualStore.Criteria.Error
import DualStore.Relational.Answer

/-!
# Columns

A field is written to a column as a parameter, and a column comes back as text, which is read by the
declared kind of the field.

* `fieldParameter`: the parameter of a field, or nothing if the field is skipped;
* `Binding`, `readColumn`, `readRow`: reading the columns of a row;
* `readCount`: reading a number of rows;
* `DecodeError`, `DecodeError.message`: why a column cannot be read.
-/

namespace DualStore.Relational

open Model

/-! ## Writing -/

/-- The parameter of a field. A missing or null value and a kind without a column are skipped; a
date after 1970 is written as a date text. -/
def fieldParameter (field : Field) (value : Option Json) (zone : Calendar.Zone) :
    Except CompileError (Option Value) :=
  match value with
  | none => .ok none
  | some .null => .ok none
  | some value =>
    let mismatch : Except CompileError (Option Value) := .error (.fieldKind field value)
    match field.kind, value with
    | .string, .str s => .ok (some (.text s))
    | .int _, value =>
      match value.asInt64? with
      | none => mismatch
      | some n =>
        if field.isDate ∧ 0 < n then
          match Calendar.write? n zone with
          | some text => .ok (some (.text text))
          | none => mismatch
        else .ok (some (.integer n))
    | .list _, .arr items => .ok (some (.text (Json.arr items).text))
    | .map _, .obj fields => .ok (some (.text (Json.obj fields).text))
    | .bool, _ => .ok none
    | .float, _ => .ok none
    | _, _ => mismatch

/-! ## Reading -/

inductive DecodeError where
  | unreadable (column raw expected : String)
  | unsupported (column : String) (kind : FieldKind)
  | width (got want : Nat)
  deriving DecidableEq, Repr

def DecodeError.message : DecodeError → String
  | .unreadable column raw expected =>
    "column '" ++ column ++ "': cannot decode '" ++ raw ++ "' as " ++ expected
  | .unsupported column kind =>
    "column '" ++ column ++ "': " ++ kind.label ++ " has no relational mapping"
  | .width got want =>
    "row has " ++ Decimal.intText got ++ " columns, expected " ++ Decimal.intText want

/-- Where the text of a column goes and how it is read. -/
structure Binding where
  key : String
  kind : FieldKind
  isDate : Bool
  deriving DecidableEq, Repr

/-- Whether a value may be an element of a list or of a map. -/
def isElement : ElementKind → Json → Bool
  | .any, _ => true
  | .string, .str _ => true
  | .string, _ => false
  | .int width, value =>
    match value.asInt64? with
    | some n => Decimal.fitsBits width.bits n
    | none => false

def readColumn (zone : Calendar.Zone) (b : Binding) (text : String) : Except DecodeError Json :=
  let unreadable (expected : String) : Except DecodeError Json :=
    .error (.unreadable b.key text expected)
  match b.kind with
  | .string => .ok (.str text)
  | .int width =>
    if width = .w64 ∧ b.isDate then
      match Decimal.readInt64? text.toList with
      | some n => .ok (.int n)
      | none =>
        match Calendar.read? text zone with
        | some n => .ok (.int n)
        | none => unreadable "date"
    else
      match Decimal.readInt64? text.toList with
      | some n =>
        if Decimal.fitsBits width.bits n then .ok (.int n) else unreadable width.columnLabel
      | none => unreadable width.columnLabel
  | .list element =>
    match Json.parse? text with
    | some (.arr items) =>
      if items.all (isElement element) then .ok (.arr items) else unreadable "JSON array"
    | _ => unreadable "JSON array"
  | .map element =>
    match Json.parse? text with
    | some (.obj fields) =>
      if fields.all (fun field => isElement element field.2) then .ok (.obj fields)
      else unreadable "JSON object"
    | _ => unreadable "JSON object"
  | .bool => .error (.unsupported b.key b.kind)
  | .float => .error (.unsupported b.key b.kind)

/-- Reads the columns of a row one after the other into an object; a null and an empty text are left
out. -/
def readColumns (zone : Calendar.Zone) (fields : Fields) :
    List (Binding × Option String) → Except DecodeError Fields
  | [] => .ok fields
  | (_, none) :: rest => readColumns zone fields rest
  | (b, some text) :: rest =>
    if text = "" then readColumns zone fields rest
    else do
      let value ← readColumn zone b text
      readColumns zone (Keyed.put b.key value fields) rest

/-- Reads a row, which must have a column for each binding. -/
def readRow (zone : Calendar.Zone) (bindings : List Binding) (row : RawRow) :
    Except DecodeError Fields :=
  if bindings.length = row.length then readColumns zone [] (bindings.zip row)
  else .error (.width row.length bindings.length)

/-- A number of rows: the first column of the first row, zero if there is none. -/
def readCount (rows : List RawRow) : Except DecodeError Int :=
  match rows.head?.bind List.head? with
  | some (some text) =>
    match Decimal.readInt64? text.toList with
    | some n => .ok n
    | none => .error (.unreadable "count" text "int64")
  | _ => .ok 0

end DualStore.Relational
