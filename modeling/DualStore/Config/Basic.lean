import DualStore.Config.Error
import DualStore.Files.Path
import DualStore.Json.Basic

/-!
# Configurations

Which data sources there are: databases, document stores, and the cache that all document stores
share.

* `DatabaseConfig`, `DocumentConfig`, `CacheConfig`, `Config`: the parts;
* `Config.toJson`: the written form;
* `Config.forProject`: the configuration that a project of a name starts with;
* `Config.checkNames`: names of sources of one sort must differ;
* `Config.resolved`: paths seen from the directory of the file.
-/

namespace DualStore

/-- The name of a source that has none. -/
def masterName : String := "MASTER"

structure DatabaseConfig where
  name : String := masterName
  path : String
  poolSize : Nat := 10
  dialect : String := "mysql"
  debug : Bool := false
  cacheSync : Bool := false
  autoId : Bool := false
  node : Int := 0
  slowQueryMs : Nat := 0
  utcOffset : Int := 0
  deriving DecidableEq, Repr

structure DocumentConfig where
  name : String := masterName
  path : String
  debug : Bool := false
  slowQueryMs : Nat := 0
  node : Int := 0
  deriving DecidableEq, Repr

/-- The cache of the document stores. -/
structure CacheConfig where
  defaultSeconds : Nat := 300
  deriving DecidableEq, Repr

structure Config where
  version : String
  databases : List DatabaseConfig := []
  documents : List DocumentConfig := []
  cache : Option CacheConfig := none
  deriving DecidableEq, Repr

def DatabaseConfig.toJson (c : DatabaseConfig) : Json :=
  .obj [("ds_name", .str c.name), ("path", .str c.path), ("pool_size", .int c.poolSize),
    ("dialect", .str c.dialect), ("debug", .bool c.debug), ("cache_sync", .bool c.cacheSync),
    ("auto_id", .bool c.autoId), ("node", .int c.node), ("slow_query_ms", .int c.slowQueryMs),
    ("utc_offset_secs", .int c.utcOffset)]

def DocumentConfig.toJson (c : DocumentConfig) : Json :=
  .obj [("ds_name", .str c.name), ("path", .str c.path), ("debug", .bool c.debug),
    ("slow_query_ms", .int c.slowQueryMs), ("node", .int c.node)]

def CacheConfig.toJson (c : CacheConfig) : Json :=
  .obj [("default_expire_secs", .int c.defaultSeconds)]

namespace Config

def fileName : String := "jorm.config.json"

def toJson (c : Config) : Json :=
  .obj [("version", .str c.version), ("relational", .arr (c.databases.map DatabaseConfig.toJson)),
    ("document", .arr (c.documents.map DocumentConfig.toJson)),
    ("cache", (c.cache.map CacheConfig.toJson).getD .null)]

/-- The configuration that a project starts with. -/
def forProject (name : String) : Config where
  version := "0.1.0"
  databases := [{ path := "./data/" ++ name ++ ".db" }]
  documents := [{ path := "./data/docs" }]
  cache := some {}

/-- The first name that stood already before. -/
def repeated? (seen : List String) : List String → Option String
  | [] => none
  | name :: rest => if seen.contains name then some name else repeated? (name :: seen) rest

/-- Refuses a configuration with two databases, or two document stores, of one name. -/
def checkNames (c : Config) : Except ConfigError Unit :=
  match repeated? [] (c.databases.map DatabaseConfig.name) with
  | some name => .error (.duplicateName name)
  | none =>
    match repeated? [] (c.documents.map DocumentConfig.name) with
    | some name => .error (.duplicateName name)
    | none => .ok ()

/-- A configuration with its paths seen from a directory. -/
def resolved (c : Config) (directory : String) : Config :=
  { c with
    databases := c.databases.map fun d => { d with path := Path.join directory d.path }
    documents := c.documents.map fun d => { d with path := Path.join directory d.path } }

end Config

end DualStore
