import RegionalTables.Cache.Basic
import RegionalTables.Environment

/-! Settings: where the catalog, the region names, the facts and the cache are to be found. Paths
may refer to variables. -/
namespace RegionalTables

structure SchemaSettings where
  storageName : String := "Regionalstatistik"
  schemaPath : Option String := none
  namesPath : Option String := none
  deriving DecidableEq

structure StoreSettings where
  index : String := "genesapi"
  factsPath : Option String := none
  deriving DecidableEq

inductive CacheBackend where
  | database
  | memory
  deriving DecidableEq

def CacheBackend.name : CacheBackend → String
  | .database => "sqlite"
  | .memory => "memory"

def CacheBackend.named? : String → Option CacheBackend
  | "sqlite" => some .database
  | "memory" => some .memory
  | _ => none

structure CacheSettings where
  enabled : Bool := true
  backend : CacheBackend := .database
  path : Option String := none
  index : Option String := none
  deriving DecidableEq

structure Settings where
  schema : SchemaSettings := {}
  store : StoreSettings := {}
  cache : CacheSettings := {}
  deriving DecidableEq

inductive SettingsError where
  | notFound (path : String)
  | unreadable (path reason : String)
  | malformed
  | malformedData (path : String)
  | unsetVariable (name : String)
  | cache (e : CacheError)
  | unsetOption (name : String)
  deriving DecidableEq

def SettingsError.message : SettingsError → String
  | .notFound path => "Config file not found: " ++ path
  | .unreadable path reason => "Failed to read " ++ path ++ ": " ++ reason
  | .malformed => "Failed to parse config file: invalid TOML"
  | .malformedData path => "Failed to parse " ++ path ++ ": invalid JSON"
  | .unsetVariable name => "Missing environment variable: " ++ name
  | .cache e => "Failed to open cache: " ++ e.message
  | .unsetOption name => "Invalid configuration: `" ++ name ++ "` is not set"

namespace Settings

/-- The index under which the cache keeps its keys. -/
def cacheIndex (s : Settings) : String :=
  s.cache.index.getD ("genesapi-tabular-cache--" ++ s.store.index)

def expand (env : Environment) (text : String) : Except SettingsError String :=
  (env.expand text).mapError .unsetVariable

/-- A path that has to be set; `name` is that of the option. -/
def requiredPath (env : Environment) (name : String) : Option String → Except SettingsError String
  | none => .error (.unsetOption name)
  | some text => expand env text

def schemaPath (s : Settings) (env : Environment) : Except SettingsError String :=
  requiredPath env "schema.schema_path" s.schema.schemaPath

def namesPath (s : Settings) (env : Environment) : Except SettingsError String :=
  requiredPath env "schema.names_path" s.schema.namesPath

def factsPath (s : Settings) (env : Environment) : Except SettingsError String :=
  requiredPath env "store.facts_path" s.store.factsPath

end Settings

end RegionalTables
