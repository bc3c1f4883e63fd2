import DualStore.Json.Parser
import DualStore.Json.Printer

/-!
# Documents

A document is an object with an integer identity. In JSON the identity is the field `_id`.

* `Document`: identity and fields; none of the fields is named `_id`;
* `Document.ofJson`, `Document.toJson`, `Document.set`: from and to JSON, and one field set;
* `Document.ofText?`, `Document.toText`: the text of a stored document;
* `StoreError`, `PipelineError`: what can go wrong in a store, with their messages.
-/

namespace DualStore

/-- What can stop a pipeline: something in it that is wrong, or a sum of integers that leaves the
range of 64 bits on its way. The latter ends the program instead of being reported. -/
inductive PipelineError where
  | malformedStage (stage : Json)
  | unsupportedStage (name : String)
  | expectsObject (name : String)
  | expectsCount (name : String)
  | expectsFieldName
  | expectsArray (name : String)
  | unsupportedOperator (name : String)
  | noGroupKey
  | unsupportedAccumulator (name : String)
  | sumOverflow
  | injected (call : String)

def PipelineError.message : PipelineError → String
  | .malformedStage stage => "malformed stage " ++ stage.text
  | .unsupportedStage name => "unsupported stage " ++ name
  | .expectsObject name => name ++ " expects an object"
  | .expectsCount name => name ++ " expects a non-negative integer"
  | .expectsFieldName => "$count expects a field name"
  | .expectsArray name => name ++ " expects an array"
  | .unsupportedOperator name => "unsupported operator " ++ name
  | .noGroupKey => "$group requires _id"
  | .unsupportedAccumulator name => "unsupported accumulator " ++ name
  | .sumOverflow => "attempt to add with overflow"
  | .injected call => "injected " ++ call

inductive NameError where
  | empty
  | leadingUnderscore
  | notAlphanumeric
  deriving DecidableEq, Repr

def NameError.message : NameError → String
  | .empty => "name cannot be empty"
  | .leadingUnderscore => "name cannot start with underscore"
  | .notAlphanumeric => "name must be alphanumeric"

inductive StoreError where
  | io
  | json
  | notFound (id : Int)
  | invalidName (e : NameError)
  | notAnObject
  | missingId
  | pipeline (e : PipelineError)
  | duplicateId (id : Int)

def StoreError.message : StoreError → String
  | .io => "IO error: no such file or directory"
  | .json => "JSON error: invalid document"
  | .notFound id => "Document not found: " ++ Decimal.intText id
  | .invalidName e => "Invalid collection name: " ++ e.message
  | .notAnObject => "Invalid document: not a JSON object"
  | .missingId => "Invalid document: missing integer _id"
  | .pipeline e => "Pipeline error: " ++ e.message
  | .duplicateId id => "Document ID already exists: " ++ Decimal.intText id

/-- A document: its identity and its other fields. -/
structure Document where
  id : Int
  fields : Fields

namespace Document

def idKey : String := "_id"

/-- A document with the given identity; an identity among the fields is dropped. -/
def make (id : Int) (fields : Fields) : Document := ⟨id, Keyed.swapErase idKey fields⟩

/-- The document that an object with an integer identity describes. -/
def ofJson : Json → Except StoreError Document
  | .obj fields =>
    match (Keyed.get? idKey fields).bind Json.asInt64? with
    | some id => .ok ⟨id, Keyed.swapErase idKey fields⟩
    | none => .error .missingId
  | _ => .error .notAnObject

def toJson (d : Document) : Json := .obj ((idKey, .int d.id) :: d.fields)

/-- A field of a document other than the identity. -/
def get? (d : Document) (key : String) : Option Json := Keyed.get? key d.fields

/-- A document with a field set; the identity cannot be set. -/
def set (d : Document) (key : String) (value : Json) : Document :=
  if key = idKey then d else { d with fields := Keyed.put key value d.fields }

def setAll (d : Document) : Fields → Document
  | [] => d
  | (key, value) :: rest => (d.set key value).setAll rest

/-- The document of a stored text: an object with exactly one integer identity. -/
def ofText? (text : String) : Option Document :=
  match Json.readRaw? text with
  | some (.obj fields) =>
    match fields.filter fun field => field.1 = idKey with
    | [(_, id)] =>
      match id.asInt64? with
      | some id =>
        match (Json.obj (fields.filter fun field => field.1 ≠ idKey)).merged with
        | .obj rest => some ⟨id, rest⟩
        | _ => none
      | none => none
    | _ => none
  | _ => none

def toText (d : Document) : String := d.toJson.prettyText

end Document

end DualStore
