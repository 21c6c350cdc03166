import RegionalTables.CommandLine.CacheFile
import RegionalTables.CommandLine.Help
import RegionalTables.Service.Report

/-! The commands of the program. -/
namespace RegionalTables.CommandLine

/-- How a run ends: its exit code and what it writes. -/
structure Completion where
  code : UInt32
  out : String
  err : String
  deriving DecidableEq

namespace Completion

def success (out : String) : Completion := ⟨0, out, ""⟩

def failure (err : String) : Completion := ⟨1, "", err ++ "\n"⟩

/-- A rejected query is answered by a body, any other failure by a message. -/
def ofError : ServiceError → Completion
  | .rejected r => ⟨1, r.body.text ++ "\n", ""⟩
  | e => failure ("Error: " ++ e.message)

def misuse : Completion :=
  ⟨2, "", "error: unexpected arguments\n\n" ++ Place.top.helpPage.text⟩

end Completion

open Completion

variable {m : Type → Type} [Monad m] [Host m]

def searchBody (catalog : Catalog) (q : Query) : Json.Value := (Filter.ofQuery catalog q).body

/-- The canonical form of a query and its cache keys. -/
def summary (q : Query) : Json.Value := .object [
  ("data_key", .string q.dataKey),
  ("definition", q.definition.value),
  ("render_key", .string q.renderKey)]

/-- Prints a value for a query that passes all checks. -/
def describe (s : Settings) (text : String) (value : Catalog → Query → Json.Value) :
    m Completion := do
  match ← loadSchema s with
  | .error e => return failure ("Error loading schema: " ++ e.message)
  | .ok (catalog, names) =>
    return match catalog.parse names text with
      | .ok q => success ((value catalog q).prettyText ++ "\n")
      | .error r => ofError (.rejected r)

def showReport (service : Service) (text : String) : Completion :=
  match service.report text with
  | .ok r => success (r.toValue.prettyText ++ "\n")
  | .error r => ofError (.rejected r)

def completion : Except ServiceError Response → Completion
  | .ok r => success r.content
  | .error e => ofError e

/-- Answers with a database as the cache. It is kept again if the answer has changed it. -/
def answerFrom (service : Service) (text index : String) (location : CacheLocation) (db : Database) :
    m Completion := do
  let (answer, cache) := service.handle text (IndexedCache.mk index db)
  if cache.inner = db then return completion answer
  match ← saveDatabase location cache.inner with
  | .ok () => return completion answer
  | .error e => return ofError (.cache e)

/-- Opens the cache of the settings and answers with it. -/
def answer (s : Settings) (service : Service) (text : String) : m Completion := do
  if !s.cache.enabled then return completion (service.handle text (none : Option Database)).1
  match s.cache.backend with
  | .memory => return completion (service.handle text MemoryCache.empty).1
  | .database =>
    let refuse (e : SettingsError) : Completion := failure ("Error opening cache: " ++ e.message)
    match ← cacheLocation s with
    | .error e => return refuse e
    | .ok location =>
      match ← openDatabase location with
      | .error e => return refuse (.cache e)
      | .ok (location, db) => answerFrom service text s.cacheIndex location db

def runQuery (s : Settings) (text : String) (debug noCache : Bool) : m Completion := do
  match ← loadSchema s with
  | .error e => return failure ("Error loading schema: " ++ e.message)
  | .ok (catalog, names) =>
    match ← loadStore s with
    | .error e => return failure ("Error opening fact store: " ++ e.message)
    | .ok store =>
      let service : Service := ⟨catalog, names, store⟩
      if debug then return showReport service text
      else if noCache then return completion (service.handle text (none : Option Database)).1
      else answer s service text

def statisticsText (n : Statistics) : String :=
  "Concrete entries: " ++ toString n.concrete ++ "\nBase entries:     " ++ toString n.base ++
    "\nTotal size:       " ++ toString n.size ++ " bytes\n"

/-- Does an action on the database at a location, and gives the text that tells of it. -/
def act (location : CacheLocation) (db : Database) : CacheAction → m (Except CacheError String)
  | .stats => return .ok (statisticsText db.statistics)
  | .clear => do
    let (n, db) := db.clear
    return (← saveDatabase location db).map fun _ => "Removed " ++ toString n ++ " entries\n"

/-- An error of the cache itself is told without saying that the settings name it. -/
def plainMessage : SettingsError → String
  | .cache e => e.message
  | e => e.message

def runCache (s : Settings) (action : CacheAction) : m Completion := do
  let refuse (e : SettingsError) : Completion := failure ("Error opening cache: " ++ plainMessage e)
  match ← cacheLocation s with
  | .error e => return refuse e
  | .ok location =>
    match ← openDatabase location with
    | .error e => return refuse (.cache e)
    | .ok (location, db) =>
      match ← act location db action with
      | .ok text => return success text
      | .error e => return failure ("Cache error: " ++ e.message)

def runCommand (s : Settings) : Command → m Completion
  | .query text debug noCache => runQuery s text debug noCache
  | .filter text => describe s text searchBody
  | .validate text => describe s text fun _ q => summary q
  | .cache action => runCache s action

/-- Runs the program with its arguments. -/
def run (arguments : List String) : m Completion := do
  match request? arguments with
  | none => return misuse
  | some .version => return success versionText
  | some (.help place) => return success place.helpPage.text
  | some (.run i) =>
    match ← loadSettings i.config with
    | .error e => return failure ("Error loading configuration: " ++ e.message)
    | .ok s => runCommand s i.command

end RegionalTables.CommandLine
