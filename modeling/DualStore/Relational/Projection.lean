import DualStore.Failure
import DualStore.Text.Search

/-!
# Projections

Which columns are selected and how they are read.

* `columnValues`: the columns that an entity writes, with their values;
* `Projection`, `Projection.ofMeta`: the columns of an entity type that are asked for;
* `Projection.ofColumns`: the columns of a free select that belong to a record type;
* `Projection.readRows`: the entities in rows.
-/

namespace DualStore.Relational

/-- The columns that the fields of an entity write, with their values. -/
def columnValues (zone : Calendar.Zone) (body : Fields) :
    List Model.Field → Except CompileError (List (String × Value))
  | [] => .ok []
  | field :: rest => do
    let value ← fieldParameter field (Keyed.get? field.name body) zone
    let values ← columnValues zone body rest
    .ok ((value.toList.map fun v => (field.name, v)) ++ values)

def bodyOf (entity : Json) : Except CompileError Fields :=
  match entity with
  | .obj fields => .ok fields
  | other => .error (.notAnObject "entity" other)

/-- Selected columns and how each is read. -/
structure Projection where
  columns : List String
  bindings : List Binding
  deriving DecidableEq, Repr

namespace Projection

def bindingOf (field : Model.Field) : Binding := ⟨field.name, field.kind, field.isDate⟩

/-- Whether a name is asked for; without any name all are. -/
def isWanted (wanted : List String) (name : String) : Bool := wanted.isEmpty || wanted.contains name

/-- The columns of an entity type that are asked for: the identity under either of its names, then
the fields in the order of their declaration. -/
def ofMeta (m : Model.EntityMeta) (wanted : List String) : Except InputError Projection :=
  let identity : List (String × Binding) :=
    if isWanted wanted idColumn || isWanted wanted m.idField then
      [(idColumn, ⟨m.idField, .int .w64, false⟩)]
    else []
  let fields := (Model.Field.relational m.fields).filter fun field => isWanted wanted field.name
  let all := identity ++ fields.map fun field => (field.name, bindingOf field)
  if all.isEmpty then .error (.unknownFields m.typeName)
  else .ok ⟨all.map Prod.fst, all.map Prod.snd⟩

/-- The field of a record type that a column belongs to: the one that has the name of the column
behind its last point. -/
def fieldOf? (m : Model.RecordMeta) (column : String) : Option Model.Field :=
  (Model.Field.relational m.fields).find? fun field =>
    field.name.toList = Text.lastPart '.' column.toList

/-- The places of the columns that belong to a record type, counted from the given one, and how they
are read. -/
def ofColumns (m : Model.RecordMeta) (place : Nat) : List String → List (Nat × Binding)
  | [] => []
  | column :: rest =>
    match fieldOf? m column with
    | none => ofColumns m (place + 1) rest
    | some field => (place, bindingOf field) :: ofColumns m (place + 1) rest

def pick (places : List Nat) (row : RawRow) : RawRow := places.map fun i => (row[i]?).getD none

def readRows (zone : Calendar.Zone) (bindings : List Binding) (layout : Model.Layout) :
    List RawRow → Except Failure (List Json)
  | [] => .ok []
  | row :: rest => do
    let fields ← (readRow zone bindings row).mapError .decode
    match layout.read? (.obj fields) with
    | none => .error .json
    | some entity => do
      let entities ← readRows zone bindings layout rest
      .ok (entity :: entities)

end Projection

end DualStore.Relational
