import DualStore.Failure

/-!
# Entities as documents

An entity is stored as a document: its identity becomes the identity of the document, and the fields
that its type ignores are left out. A document that a pipeline gives becomes an entity again.

* `Document.ofEntity`: the document of an entity;
* `entityFields`, `toEntity`: the fields of an entity in a document, and the entity.
-/

namespace DualStore.Document

def dropIgnored (fields : Fields) : List Model.Field → Fields
  | [] => fields
  | field :: rest =>
    dropIgnored (if field.ignored then Keyed.swapErase field.name fields else fields) rest

def ofEntity (m : Model.EntityMeta) (id : Int) (entity : Json) : Except Failure Document :=
  match entity with
  | .obj fields => .ok (make id (dropIgnored (Keyed.swapErase m.idField fields) m.fields))
  | other => .error (.compile (.notAnObject m.typeName other))

/-- The fields of the entity in a document: the identity goes by its declared name, unless the
document has a field of that name already. -/
def entityFields (idField : String) (fields : Fields) : Fields :=
  match Keyed.get? idKey fields with
  | none => fields
  | some id =>
    let rest := Keyed.swapErase idKey fields
    if Keyed.has idField rest then rest else Keyed.put idField id rest

def toEntity (idField : String) (layout : Model.Layout) (doc : Json) : Except Failure Json :=
  match doc with
  | .obj fields =>
    match layout.read? (.obj (entityFields idField fields)) with
    | some entity => .ok entity
    | none => .error .json
  | other => .error (.data (.notADocument other))

def toEntities (idField : String) (layout : Model.Layout) : List Json → Except Failure (List Json)
  | [] => .ok []
  | doc :: rest => do
    let entity ← toEntity idField layout doc
    let entities ← toEntities idField layout rest
    .ok (entity :: entities)

end DualStore.Document
