import DualStore.Config.Basic
import DualStore.Json.Parser

/-!
# Reading configurations

A part of a configuration is written as an object, or as an array of its members in order. Members
that may be missing have a default; unknown members of an object are passed over, but no known one
may stand there twice.

* `Written`, `Written.ofJson?`, `Written.member?`: a part as it is written, and one member of it;
* `Config.ofJson?`, `Config.ofText`: a configuration.
-/

namespace DualStore

/-- A part of a configuration as it is written. -/
inductive Written where
  | named (fields : Fields)
  | listed (items : List Json)

namespace Written

/-- Whether some key stands twice among fields. -/
def repeats (fields : Fields) (key : String) : Bool := 1 < (fields.filter fun f => f.1 = key).length

def ofJson? (names : List String) : Json → Option Written
  | .obj fields => if names.any (repeats fields) then none else some (.named fields)
  | .arr items => if names.length < items.length then none else some (.listed items)
  | _ => none

def find? (w : Written) (place : Nat) (name : String) : Option Json :=
  match w with
  | .named fields => Keyed.get? name fields
  | .listed items => items[place]?

/-- A member of a part; without a default it must be there. -/
def member? {α : Type} (w : Written) (place : Nat) (name : String) (default : Option α)
    (read : Json → Option α) : Option α :=
  match w.find? place name with
  | some v => read v
  | none => default

end Written

namespace Config

/-- A number from zero to below a bound. -/
def below? (bound : Nat) (j : Json) : Option Nat := j.asNat64?.filter fun n => n < bound

def end32 : Nat := 4294967296

def end64 : Nat := 18446744073709551616

def int32? (j : Json) : Option Int := j.asInt64?.filter (Decimal.fitsBits 32)

def database? (j : Json) : Option DatabaseConfig := do
  let w ← Written.ofJson? ["ds_name", "path", "pool_size", "dialect", "debug", "cache_sync",
    "auto_id", "node", "slow_query_ms", "utc_offset_secs"] j
  some {
    name := ← w.member? 0 "ds_name" (some masterName) Json.asText?
    path := ← w.member? 1 "path" none Json.asText?
    poolSize := ← w.member? 2 "pool_size" (some 10) (below? end32)
    dialect := ← w.member? 3 "dialect" (some "mysql") Json.asText?
    debug := ← w.member? 4 "debug" (some false) Json.asBool?
    cacheSync := ← w.member? 5 "cache_sync" (some false) Json.asBool?
    autoId := ← w.member? 6 "auto_id" (some false) Json.asBool?
    node := ← w.member? 7 "node" (some 0) Json.asInt64?
    slowQueryMs := ← w.member? 8 "slow_query_ms" (some 0) (below? end64)
    utcOffset := ← w.member? 9 "utc_offset_secs" (some 0) int32? }

def document? (j : Json) : Option DocumentConfig := do
  let w ← Written.ofJson? ["ds_name", "path", "debug", "slow_query_ms", "node"] j
  some {
    name := ← w.member? 0 "ds_name" (some masterName) Json.asText?
    path := ← w.member? 1 "path" none Json.asText?
    debug := ← w.member? 2 "debug" (some false) Json.asBool?
    slowQueryMs := ← w.member? 3 "slow_query_ms" (some 0) (below? end64)
    node := ← w.member? 4 "node" (some 0) Json.asInt64? }

def cache? (j : Json) : Option CacheConfig := do
  let w ← Written.ofJson? ["default_expire_secs"] j
  some { defaultSeconds := ← w.member? 0 "default_expire_secs" (some 300) (below? end64) }

def items? {α : Type} (read : Json → Option α) (j : Json) : Option (List α) :=
  j.asList?.bind fun items => items.mapM read

def nullable? {α : Type} (read : Json → Option α) : Json → Option (Option α)
  | .null => some none
  | v => (read v).map some

def ofJson? (j : Json) : Option Config := do
  let w ← Written.ofJson? ["version", "relational", "document", "cache"] j
  some {
    version := ← w.member? 0 "version" none Json.asText?
    databases := ← w.member? 1 "relational" (some []) (items? database?)
    documents := ← w.member? 2 "document" (some []) (items? document?)
    cache := ← w.member? 3 "cache" (some none) (nullable? cache?) }

/-- The configuration in the text of a file, its paths seen from the directory of the file. -/
def ofText (text directory : String) : Except ConfigError Config := do
  match (Json.readRaw? text).bind ofJson? with
  | none => .error (.malformed "unexpected content")
  | some c => do
    c.checkNames
    .ok (c.resolved directory)

end Config

end DualStore
