/-!
# Faulty configurations

* `ConfigError`, `ConfigError.message`: why no configuration is read from a file.
-/

namespace DualStore

/-- Why no configuration is read from a file. -/
inductive ConfigError where
  | notFound (path : String)
  | unreadable (reason : String)
  | malformed (reason : String)
  | duplicateName (name : String)
  deriving DecidableEq, Repr

def ConfigError.message : ConfigError → String
  | .notFound path => "Config file not found: " ++ path
  | .unreadable reason => "Failed to read config: " ++ reason
  | .malformed reason => "Invalid config format: " ++ reason
  | .duplicateName name => "Duplicate data source name: " ++ name

end DualStore
