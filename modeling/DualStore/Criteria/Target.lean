import DualStore.Failure

/-!
# The target of a criteria

A criteria may be made for an entity type. A call that is given a criteria needs the metadata of
that type, and a call that reads entities of a type refuses a criteria made for another one.

* `EntityType.checked`: the metadata of an entity type, or the failure of its declaration;
* `Criteria.target`: the metadata of the type that a criteria is made for;
* `Criteria.checkTarget`: whether a criteria may be used to read a type.
-/

namespace DualStore

def Model.EntityType.checked (t : Model.EntityType) : Except Failure Model.EntityMeta :=
  t.resolve.mapError .declaration

theorem Model.EntityType.checked_of_resolve {t : Model.EntityType} {m : Model.EntityMeta}
    (h : t.resolve = .ok m) : t.checked = .ok m := by
  rw [checked, h]
  rfl

namespace Criteria

/-- The metadata of the type that a criteria is made for. -/
def target (c : Criteria) : Except Failure Model.EntityMeta :=
  match c.model with
  | none => .error (.input .noModel)
  | some t => t.checked

/-- Refuses a criteria that is made for another type. -/
def checkTarget (c : Criteria) (t : Model.EntityType) : Except Failure Unit :=
  match c.model with
  | none => .ok ()
  | some other => if other = t then .ok () else .error (.input (.wrongModel other.name t.name))

end Criteria

end DualStore
