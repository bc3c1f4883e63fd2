import DualStore.Model.Layout
import DualStore.Text.Blank
import DualStore.Decimal.Integer

/-!
# Entity types and their metadata

An entity type declares an identity, a table and fields. Before it is used the declaration is
checked; what comes out is the metadata of the type.

* `EntityType`: the declaration;
* `EntityMeta`, `RecordMeta`: a checked declaration of an entity and of a mere record;
* `MetaError`, `MetaError.message`: what can be wrong with a declaration;
* `checkFields`: names are not blank and not repeated, and only a 64-bit integer is a date;
* `EntityType.resolve`, `EntityType.resolveRecord`: the checks.
-/

namespace DualStore.Model

/-- What can be wrong with a declaration. -/
inductive MetaError where
  | missingIdentity (typeName : String)
  | missingTable (typeName : String)
  | missingFieldName (typeName : String) (index : Nat)
  | duplicateField (typeName name : String)
  | dateKind (typeName name : String)
  deriving DecidableEq, Repr

def MetaError.message : MetaError → String
  | .missingIdentity typeName => typeName ++ ": identity field name is empty"
  | .missingTable typeName => typeName ++ ": table name is empty"
  | .missingFieldName typeName index =>
    typeName ++ ": field #" ++ Decimal.intText index ++ " has no serialization name"
  | .duplicateField typeName name => typeName ++ ": duplicate field name '" ++ name ++ "'"
  | .dateKind typeName name => typeName ++ ": date flag on '" ++ name ++ "' requires an Int64 field"

/-- The identity of an entity type: the declared name of the identity field, the table or
collection, and whether written entities are replicated into the document store. -/
structure Identity where
  name : String
  table : String
  replicated : Bool := false
  deriving DecidableEq, Repr

/-- An entity type: its name, its identity, its declared fields, its shape, and the member of the
shape that carries the identity. -/
structure EntityType where
  name : String
  identity : Identity
  fields : List Field
  layout : Layout
  key : String
  deriving DecidableEq, Repr

structure EntityMeta where
  typeName : String
  table : String
  idField : String
  replicated : Bool
  fields : List Field
  deriving DecidableEq, Repr

structure RecordMeta where
  typeName : String
  fields : List Field
  deriving DecidableEq, Repr

/-- Checks fields from a position on, given the names already taken. -/
def checkFields (typeName : String) : Nat → List String → List Field → Except MetaError Unit
  | _, _, [] => .ok ()
  | index, taken, field :: rest =>
    if Text.isBlankText field.name then .error (.missingFieldName typeName index)
    else if field.name ∈ taken then .error (.duplicateField typeName field.name)
    else if field.isDate ∧ field.kind ≠ .int .w64 then .error (.dateKind typeName field.name)
    else checkFields typeName (index + 1) (field.name :: taken) rest

def EntityType.resolve (t : EntityType) : Except MetaError EntityMeta :=
  if Text.isBlankText t.identity.name then .error (.missingIdentity t.name)
  else if Text.isBlankText t.identity.table then .error (.missingTable t.name)
  else do
    checkFields t.name 0 [t.identity.name] t.fields
    .ok ⟨t.name, t.identity.table, t.identity.name, t.identity.replicated, t.fields⟩

/-- Checks the fields of a type that is only read. -/
def EntityType.resolveRecord (t : EntityType) : Except MetaError RecordMeta := do
  checkFields t.name 0 [] t.fields
  .ok ⟨t.name, t.fields⟩

def EntityType.identityOf (t : EntityType) (entity : Json) : Int := Layout.identity t.key entity

def EntityType.withIdentity (t : EntityType) (id : Int) (entity : Json) : Json :=
  Layout.withIdentity t.key id entity

end DualStore.Model
