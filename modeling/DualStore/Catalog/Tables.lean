import DualStore.Sql.Table

/-!
# Tables of the sample catalog

* `tableDefs`: the tables that the entity types of the catalog are kept in;
* `emptyDatabase`: these tables without a row.
-/

namespace DualStore.Catalog

open Sql

def keyColumn : ColumnDef := ⟨"id", .integer⟩

def textColumn (name : String) : ColumnDef := ⟨name, .text⟩

def integerColumn (name : String) : ColumnDef := ⟨name, .integer⟩

def tableDefs : List TableDef :=
  [{ name := "profile"
     columns := [keyColumn, textColumn "name", integerColumn "tiny", integerColumn "small",
       integerColumn "mid", integerColumn "big", textColumn "tags", textColumn "scores",
       textColumn "born"]
     countsOn := true },
    { name := "account", columns := [keyColumn, textColumn "owner", integerColumn "balance"] },
    { name := "pet"
      columns := [keyColumn, integerColumn "owner_id", textColumn "kind"]
      countsOn := true },
    { name := "member"
      columns := [keyColumn, textColumn "nick", integerColumn "level", textColumn "joined",
        textColumn "marks", textColumn "attrs", textColumn "memo"] },
    { name := "sparse"
      columns := [keyColumn, textColumn "a", integerColumn "b"]
      countsOn := true },
    { name := "loose"
      columns := [keyColumn, textColumn "s", integerColumn "n", textColumn "d", textColumn "l",
        textColumn "m"] },
    { name := "flags", columns := [keyColumn] },
    { name := "sink", columns := [keyColumn, textColumn "name"], discards := true }]

def emptyDatabase : Database := tableDefs.map fun shape => ⟨shape, [], 0⟩

end DualStore.Catalog
