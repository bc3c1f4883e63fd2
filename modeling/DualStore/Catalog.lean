import DualStore.Model.Entity

/-!
# Sample catalog

Entity types of a small shop: accounts, members, profiles with their pets. Besides the useful ones
there are types whose declaration is at fault, each in one way, so that every check can be seen to
fail.

* `entityTypes`: all types by name;
* `find?`: a type of a given name.
-/

namespace DualStore.Catalog

open Model

def long : MemberType := .int .w64

def idMember : Member := ⟨"id", long⟩

def profile : EntityType where
  name := "Profile"
  identity := { name := "id", table := "profile" }
  key := "id"
  fields := [
    { name := "name", kind := .string },
    { name := "tiny", kind := .int .w8 },
    { name := "small", kind := .int .w16 },
    { name := "mid", kind := .int .w32 },
    { name := "big", kind := .int .w64 },
    { name := "tags", kind := .list .string },
    { name := "scores", kind := .map (.int .w64) },
    { name := "born", kind := .int .w64, isDate := true },
    { name := "note", kind := .string, ignored := true }]
  layout := .record [idMember, ⟨"name", .text⟩, ⟨"tiny", .int .w8⟩, ⟨"small", .int .w16⟩,
    ⟨"mid", .int .w32⟩, ⟨"big", long⟩, ⟨"tags", .list .text⟩, ⟨"scores", .map long⟩, ⟨"born", long⟩,
    ⟨"note", .text⟩]

def account : EntityType where
  name := "Account"
  identity := { name := "id", table := "account", replicated := true }
  key := "id"
  fields := [{ name := "owner", kind := .string }, { name := "balance", kind := .int .w64 }]
  layout := .record [idMember, ⟨"owner", .text⟩, ⟨"balance", long⟩]

/-- A member of a club; the identity has a name of its own. -/
def member : EntityType where
  name := "Member"
  identity := { name := "uid", table := "member", replicated := true }
  key := "uid"
  fields := [
    { name := "nick", kind := .string },
    { name := "level", kind := .int .w16 },
    { name := "joined", kind := .int .w64, isDate := true },
    { name := "vip", kind := .bool },
    { name := "ratio", kind := .float },
    { name := "marks", kind := .list (.int .w8) },
    { name := "attrs", kind := .map .any },
    { name := "memo", kind := .string },
    { name := "secret", kind := .string, ignored := true }]
  layout := .record [⟨"uid", long⟩, ⟨"nick", .text⟩, ⟨"level", .int .w16⟩, ⟨"joined", long⟩,
    ⟨"vip", .bool⟩, ⟨"ratio", .float⟩, ⟨"marks", .list (.int .w8)⟩, ⟨"attrs", .map .any⟩,
    ⟨"memo", .optional .text⟩, ⟨"secret", .text⟩]

/-- An entity whose fields may all be missing. -/
def sparse : EntityType where
  name := "Sparse"
  identity := { name := "id", table := "sparse" }
  key := "id"
  fields := [{ name := "a", kind := .string }, { name := "b", kind := .int .w64 }]
  layout := .record [idMember, ⟨"a", .optional .text⟩, ⟨"b", .optional long⟩]

/-- An entity whose members hold any value, whatever is declared. -/
def loose : EntityType where
  name := "Loose"
  identity := { name := "id", table := "loose", replicated := true }
  key := "id"
  fields := [
    { name := "s", kind := .string },
    { name := "n", kind := .int .w32 },
    { name := "d", kind := .int .w64, isDate := true },
    { name := "l", kind := .list (.int .w16) },
    { name := "m", kind := .map .string }]
  layout := .record [idMember, ⟨"s", .any⟩, ⟨"n", .any⟩, ⟨"d", .any⟩, ⟨"l", .any⟩, ⟨"m", .any⟩]

def named (typeName table : String) (replicated : Bool) : EntityType where
  name := typeName
  identity := { name := "id", table := table, replicated := replicated }
  key := "id"
  fields := [{ name := "name", kind := .string }]
  layout := .record [idMember, ⟨"name", .text⟩]

/-- An entity without any column. -/
def flags : EntityType where
  name := "Flags"
  identity := { name := "id", table := "flags" }
  key := "id"
  fields := [{ name := "on", kind := .bool }]
  layout := .record [idMember, ⟨"on", .bool⟩]

/-- A type with a blank table name. -/
def noTable : EntityType where
  name := "NoTable"
  identity := { name := "id", table := "  " }
  key := "id"
  fields := []
  layout := .record [idMember]

def noIdentity : EntityType where
  name := "NoIdentity"
  identity := { name := " ", table := "t" }
  key := "id"
  fields := [{ name := "", kind := .string }]
  layout := .record [idMember]

def noFieldName : EntityType where
  name := "NoFieldName"
  identity := { name := "id", table := "t" }
  key := "id"
  fields := [{ name := "a", kind := .string }, { name := " ", kind := .string }]
  layout := .record [idMember, ⟨"a", .text⟩]

/-- A type that declares a field twice. -/
def dupField : EntityType where
  name := "DupField"
  identity := { name := "id", table := "t" }
  key := "id"
  fields := [{ name := "a", kind := .string }, { name := "b", kind := .int .w8 },
    { name := "a", kind := .string, ignored := true }]
  layout := .record [idMember, ⟨"a", .text⟩]

/-- A type that declares its identity as a field. -/
def dupIdentity : EntityType where
  name := "DupIdentity"
  identity := { name := "id", table := "t" }
  key := "id"
  fields := [{ name := "id", kind := .int .w64 }]
  layout := .record [idMember]

/-- A type with a date that is too narrow. -/
def badDate : EntityType where
  name := "BadDate"
  identity := { name := "id", table := "t" }
  key := "id"
  fields := [{ name := "at", kind := .int .w32, isDate := true }]
  layout := .record [idMember, ⟨"at", .text⟩]

/-- A type whose serialized form is a bare integer, its identity. -/
def scalar : EntityType where
  name := "Scalar"
  identity := { name := "id", table := "account" }
  key := "id"
  fields := [{ name := "name", kind := .string }]
  layout := .integer

/-- A record that free selects are read into. -/
def view : EntityType where
  name := "View"
  identity := { name := "", table := "" }
  key := "id"
  fields := [
    { name := "name", kind := .string },
    { name := "kind", kind := .string },
    { name := "n", kind := .int .w64 },
    { name := "small", kind := .int .w8 },
    { name := "mean", kind := .string },
    { name := "born", kind := .int .w64, isDate := true },
    { name := "tags", kind := .list .any },
    { name := "scores", kind := .map .any },
    { name := "flag", kind := .bool },
    { name := "hidden", kind := .string, ignored := true }]
  layout := .record [⟨"name", .text⟩, ⟨"kind", .text⟩, ⟨"n", long⟩, ⟨"small", .int .w8⟩,
    ⟨"mean", .text⟩, ⟨"born", long⟩, ⟨"tags", .list .any⟩, ⟨"scores", .map .any⟩, ⟨"flag", .bool⟩,
    ⟨"hidden", .text⟩]

def badView : EntityType where
  name := "BadView"
  identity := { name := "", table := "" }
  key := "id"
  fields := [{ name := "name", kind := .string }, { name := "name", kind := .string }]
  layout := .record [⟨"name", .text⟩]

def entityTypes : List EntityType :=
  [profile, account, member, sparse, loose, named "Ghost" "no_such_table" false,
    named "Sink" "sink" false, named "Dashed" "da-shed" true, flags, noTable, noIdentity,
    noFieldName, dupField, dupIdentity, badDate, scalar, view, badView]

def find? (name : String) : Option EntityType := entityTypes.find? fun t => t.name = name

end DualStore.Catalog
