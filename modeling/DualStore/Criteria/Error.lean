import DualStore.Criteria.Basic

/-!
# Refusals

Why a call is refused before any store is asked.

* `InputError`: a call with wrong arguments;
* `CompileError`: a condition or a value that no statement can express;
* `InputError.message`, `CompileError.message`: their texts.
-/

namespace DualStore

inductive InputError where
  | noAssignments
  | noEntities (call : String)
  | nothingToInsert (typeName : String)
  | nothingToSet (typeName : String)
  | noIdentity (call typeName : String)
  | zeroIdentity
  | nothingSelected
  | noTable
  | noModel
  | wrongModel (target wanted : String)
  | unknownFields (typeName : String)
  deriving DecidableEq, Repr

def InputError.message : InputError → String
  | .noAssignments => "update_by_cnd needs update_key_value pairs"
  | .noEntities call => call ++ ": no entities given"
  | .nothingToInsert typeName => "save: " ++ typeName ++ " has nothing to insert"
  | .nothingToSet typeName => "update: " ++ typeName ++ " has nothing to set"
  | .noIdentity call typeName => call ++ ": " ++ typeName ++ " has no identity"
  | .zeroIdentity => "find_by_id: identity must be non-zero"
  | .nothingSelected => "find_complex: no fields selected"
  | .noTable => "find_complex: no from table"
  | .noModel => "condition model has no entity; build it with Cnd::of"
  | .wrongModel target wanted => "condition model targets " ++ target ++ ", not " ++ wanted
  | .unknownFields typeName => "no requested field belongs to " ++ typeName

/-- A condition or a value that no statement can express. -/
inductive CompileError where
  | operand (condition : Condition)
  | emptyList (key operator : String)
  | fieldKind (field : Model.Field) (value : Json)
  | notAnObject (what : String) (value : Json)

def CompileError.message : CompileError → String
  | .operand condition => condition.mismatch
  | .emptyList key operator => "'" ++ key ++ " " ++ operator ++ "' needs at least one value"
  | .fieldKind field value =>
    "field '" ++ field.name ++ "' declared " ++ field.kind.label ++ " but serialized as "
      ++ value.text
  | .notAnObject what value => what ++ " serialized to non-object " ++ value.text

end DualStore
