import DualStore.Criteria.Basic

/-!
# Criteria as JSON

Every part of a criteria written out, so that it can be looked at.

* `Page.toJson`, `Page.outline`: a page, and the same with what follows from it;
* `Condition.toJson`: a condition, the conditions of groups included;
* `Criteria.toJson`: all parts.
-/

namespace DualStore

def Json.ofTexts (texts : List String) : Json := .arr (texts.map .str)

def Page.fields (p : Page) : Fields :=
  [("page_no", .int p.number), ("page_size", .int p.size), ("page_total", .int p.total),
    ("page_count", .int p.count), ("spilled", .bool p.spilled), ("is_offset", .bool p.isOffset)]

def Page.toJson (p : Page) : Json := .obj p.fields

/-- A page with the number of rows before it, and whether it is one. -/
def Page.outline (p : Page) : Json :=
  .obj (p.fields ++ [("skip", .int p.skip), ("is_set", .bool p.isSet)])

def Operand.toJson : Operand → Json
  | .none => .null
  | .one value => .obj [("one", value.toJson)]
  | .range low high => .obj [("range", .arr [low.toJson, high.toJson])]
  | .many values => .obj [("many", .arr (Value.itemsToJson values))]

/-- A marker on a key with what it is applied to. -/
def markerToJson (logic : Logic) (key : String) (operand : Json) : Json :=
  .obj [("logic", .str logic.name), ("key", .str key), ("operand", operand)]

namespace Condition

mutual

def toJson : Condition → Json
  | .on logic key operand => markerToJson logic key operand.toJson
  | .group logic key members _ =>
    markerToJson logic key (.obj [("group", .arr (membersToJson members))])

def allToJson : List Condition → List Json
  | [] => []
  | c :: rest => toJson c :: allToJson rest

def membersToJson : List (List Condition) → List Json
  | [] => []
  | m :: rest => .arr (allToJson m) :: membersToJson rest

end

end Condition

def Directive.toJson (d : Directive) : Json := markerToJson d.logic d.key .null

/-- A cache directive with what follows from it. -/
def CacheDirective.toJson (d : CacheDirective) : Json :=
  .obj [("open", .bool d.isOpen), ("prefix", .str d.scope), ("key", .str d.key),
    ("expire", .int d.expire), ("active", .bool d.isActive), ("full_key", .str d.fullKey)]

def Criteria.toJson (c : Criteria) : Json :=
  .obj [
    ("model", (c.model.map fun t => Json.str t.name).getD .null),
    ("conditions", .arr (Condition.allToJson c.conditions)),
    ("fields", Json.ofTexts c.fields),
    ("distincts", Json.ofTexts c.distincts),
    ("groupbys", Json.ofTexts c.groups),
    ("orderbys", .arr (c.orders.map Directive.toJson)),
    ("aggregates", .arr (c.aggregates.map Directive.toJson)),
    ("update", .arr (c.assignments.map fun a => .arr [.str a.1, a.2.toJson])),
    ("page", c.page.outline),
    ("from", .obj [("table", .str c.origin.table), ("alias", .str c.origin.shortName)]),
    ("joins", .arr (c.joins.map fun j =>
      Json.ofTexts [j.kind.name, j.table, j.shortName, j.condition])),
    ("cache", c.cache.toJson)]

end DualStore
