import RegionalTables.Cache.Database
import RegionalTables.Catalog.Reading
import RegionalTables.Catalog.RegionNames
import RegionalTables.FactStore
import RegionalTables.Path
import RegionalTables.Settings.Reading
import RegionalTables.Text.Utf8

/-! What the program needs of its host, and how it finds its settings and its data there. -/
namespace RegionalTables

class Host (m : Type → Type) where
  /-- The value of a variable. -/
  valueOf : String → m (Option String)
  /-- The home directory on record for the user's account. -/
  accountHome : m (Option String)
  /-- The directory that relative paths start from. -/
  workingDirectory : m Path
  /-- Whether there is a file or directory at the path, or why there can be none. -/
  presence : Path → m (Except String Bool)
  /-- The bytes of a file, or why they cannot be read. -/
  bytesAt : Path → m (Except String (List UInt8))
  /-- Makes a directory and those above it, where they are not there yet. -/
  makeDirectory : Path → m (Except String Unit)
  /-- Makes an empty file, unless there is a file. -/
  makeFile : Path → m (Except String Unit)
  removeFile : Path → m (Except String Unit)
  /-- The database a file holds; none if the file is blank. -/
  databaseAt : Path → m (Except String (Option Database))
  putDatabase : Path → Database → m (Except String Unit)

namespace CommandLine

variable {m : Type → Type} [Monad m] [Host m]

/-- The values of the variables a text refers to. -/
def environmentFor (text : String) : m Environment := do
  let names := (Environment.pieces text.toList).filterMap fun
    | .reference name => some (String.ofList name)
    | .plain _ => none
  let values ← names.mapM fun name => do
    let value ← Host.valueOf (m := m) name
    return (name, value)
  return fun name => (values.lookup name).join

def homeDirectory? : m (Option String) := do
  match (← Host.valueOf "HOME").filter (· != "") with
  | some home => return some home
  | none => Host.accountHome

/-- The directory for the settings of a user. -/
def configDirectory? : m (Option String) := do
  match (← Host.valueOf "XDG_CONFIG_HOME").filter (·.startsWith "/") with
  | some directory => return some directory
  | none => return (← homeDirectory?).map (Path.join · ".config")

def isPresent (path : Path) : m Bool := do
  return match ← Host.presence path with
    | .ok present => present
    | .error _ => false

def readText (path : String) : m (Except SettingsError String) := do
  return match ← Host.bytesAt (.ofText path) with
    | .error reason => .error (.unreadable path reason)
    | .ok bytes =>
      match Text.Utf8.decode? bytes with
      | some cs => .ok (String.ofList cs)
      | none => .error (.unreadable path "stream did not contain valid UTF-8")

def loadSettingsAt (path : String) : m (Except SettingsError Settings) := do
  if ← isPresent (.ofText path) then
    return (← readText path).bind fun text =>
      match Settings.read? text with
      | some s => .ok s
      | none => .error .malformed
  else return .error (.notFound path)

/-- The first of the files that is there. -/
def firstPresent : List String → m (Option String)
  | [] => return none
  | path :: rest => do
    if ← isPresent (.ofText path) then return some path else firstPresent rest

/-- The file named by the arguments or by a variable, else the one in the working directory or in
the user's directory. Where there is none, all settings have their defaults. -/
def loadSettings (config : Option String) : m (Except SettingsError Settings) := do
  match config <|> (← Host.valueOf "TABULAR_CONFIG") with
  | some path => loadSettingsAt path
  | none =>
    let own := (← configDirectory?).map fun d => Path.join (Path.join d "tabular") "config.toml"
    match ← firstPresent ("tabular.toml" :: own.toList) with
    | some path => loadSettingsAt path
    | none => return .ok {}

/-- A path from the settings; `name` is that of the option. -/
def settingsPath (name : String) (value : Option String) : m (Except SettingsError String) := do
  return Settings.requiredPath (← environmentFor (value.getD "")) name value

/-- Reads the file at a path from the settings. -/
def loadFile (name : String) (value : Option String) (read? : String → Option α) :
    m (Except SettingsError α) := do
  match ← settingsPath name value with
  | .error e => return .error e
  | .ok path =>
    return (← readText path).bind fun text =>
      match read? text with
      | some a => .ok a
      | none => .error (.malformedData path)

/-- The catalog and then the region names. -/
def loadSchema (s : Settings) : m (Except SettingsError (Catalog × RegionNames)) := do
  match ← loadFile "schema.schema_path" s.schema.schemaPath (Catalog.read? s.schema.storageName) with
  | .error e => return .error e
  | .ok catalog =>
    return (← loadFile "schema.names_path" s.schema.namesPath RegionNames.read?).map (catalog, ·)

/-- The fact file is read, but a file that cannot be read is no error yet. -/
def loadStore (s : Settings) : m (Except SettingsError FactStore) := do
  match ← settingsPath "store.facts_path" s.store.factsPath with
  | .error e => return .error e
  | .ok path => return .ok ⟨s.store.index, .file path (← Host.bytesAt (.ofText path))⟩

/-- The location of the cache database. -/
def cacheLocation (s : Settings) : m (Except SettingsError String) := do
  match s.cache.path with
  | some text => return Settings.expand (← environmentFor text) text
  | none =>
    match ← homeDirectory? with
    | some home => return .ok (Path.join (Path.join home ".tabular") "cache.db")
    | none => return .error (.cache .noDirectory)

end CommandLine

end RegionalTables
