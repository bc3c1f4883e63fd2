import DualStore.Config.Reader
import DualStore.Failure
import DualStore.Files.Request
import DualStore.Relational.UnitOfWork

/-!
# Data sources

The databases and document stores of a configuration, opened and kept by name, and the registry that
holds them for a whole program.

* `Config.load`: the configuration in a file;
* `DatabaseSource`, `DocumentSource`, `Sources`: opened sources, ordered by name;
* `Sources.openAll`, `Sources.ping`: opening all sources of a configuration, and asking whether they
  answer;
* `Registry`: sources that are there once and for all.
-/

namespace DualStore

def Config.load (path : String) : FileWork (Except ConfigError Config) := do
  match ← askRead path with
  | .missing => pure (.error (.notFound path))
  | .unreadable reason => pure (.error (.unreadable reason))
  | .text text => pure (Config.ofText text (Path.parent path))

structure DatabaseSource where
  path : String
  settings : Relational.Settings
  debug : Bool
  slowQueryMs : Nat

structure DocumentSource where
  path : String
  hasCache : Bool
  debug : Bool
  slowQueryMs : Nat
  node : Int
  deriving DecidableEq, Repr

/-- Opened sources by name, in the order of the names. -/
structure Sources where
  databases : List (String × DatabaseSource) := []
  documents : List (String × DocumentSource) := []

namespace Sources

/-- Opens a database. An unknown dialect is refused before. -/
def openDatabase (c : DatabaseConfig) : FileWork (Except Failure DatabaseSource) := do
  match Relational.Dialect.parse c.dialect with
  | .error e => pure (.error (.dialect e))
  | .ok dialect => do
    let opened ← askOpenDatabase c.path
    pure (match opened with
      | .error e => .error (.database e)
      | .ok _ => .ok {
          path := c.path
          settings := ⟨dialect, c.cacheSync, c.autoId, c.node, .ofSeconds c.utcOffset⟩
          debug := c.debug
          slowQueryMs := c.slowQueryMs })

def openDatabases (s : Sources) : List DatabaseConfig → FileWork (Except Failure Sources)
  | [] => pure (.ok s)
  | c :: rest => do
    match ← openDatabase c with
    | .error e => pure (.error e)
    | .ok source =>
      openDatabases { s with databases := Keyed.putSorted c.name source s.databases } rest

def openDocuments (hasCache : Bool) (s : Sources) :
    List DocumentConfig → FileWork (Except Failure Sources)
  | [] => pure (.ok s)
  | c :: rest => do
    match ← askOpenStore c.path with
    | .error e => pure (.error (.document e))
    | .ok _ =>
      let source : DocumentSource := ⟨c.path, hasCache, c.debug, c.slowQueryMs, c.node⟩
      openDocuments hasCache { s with documents := Keyed.putSorted c.name source s.documents } rest

/-- Opens all sources of a configuration, the databases first. The document stores share a cache if
one is given or configured. -/
def openAll (c : Config) (givenCache : Bool) : FileWork (Except Failure Sources) := do
  match ← openDatabases {} c.databases with
  | .error e => pure (.error e)
  | .ok s => openDocuments (givenCache || c.cache.isSome) s c.documents

def database (s : Sources) (name : String) : Except Failure DatabaseSource :=
  match Keyed.get? name s.databases with
  | some source => .ok source
  | none => .error (.sourceNotFound name)

def document (s : Sources) (name : String) : Except Failure DocumentSource :=
  match Keyed.get? name s.documents with
  | some source => .ok source
  | none => .error (.sourceNotFound name)

def pingDatabases : List (String × DatabaseSource) → FileWork (List (String × Except Failure Unit))
  | [] => pure []
  | (name, source) :: rest => do
    let answer ← askPingDatabase source.path
    let others ← pingDatabases rest
    pure (("relational:" ++ name, answer.mapError .database) :: others)

def pingDocuments : List (String × DocumentSource) → FileWork (List (String × Except Failure Unit))
  | [] => pure []
  | (name, source) :: rest => do
    let answer ← askPingStore source.path
    let others ← pingDocuments rest
    pure (("document:" ++ name, answer.mapError .document) :: others)

/-- Asks all sources whether they answer. -/
def ping (s : Sources) : FileWork (List (String × Except Failure Unit)) := do
  let databases ← pingDatabases s.databases
  let documents ← pingDocuments s.documents
  pure (databases ++ documents)

end Sources

/-- The sources of a program, once they are set. -/
structure Registry where
  sources : Option Sources := none

namespace Registry

/-- Sets the sources; this can be done once. -/
def set (r : Registry) (s : Sources) : Except Failure Registry :=
  match r.sources with
  | some _ => .error .alreadyInitialized
  | none => .ok ⟨some s⟩

def get (r : Registry) : Except Failure Sources :=
  match r.sources with
  | some s => .ok s
  | none => .error .notInitialized

end Registry

end DualStore
