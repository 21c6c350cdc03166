import RegionalTables.Cache.Location
import RegionalTables.CommandLine.Host

/-! The file of a cache database. While a change is written, a journal lies beside the file. A run
that is cut short leaves it there, and other users of the file may leave a log. Both have to go
before the file is used again. -/
namespace RegionalTables.CommandLine

variable {m : Type → Type} [Monad m] [Host m]

namespace CacheFile

def journal (file : Path) : Path := file ++ Path.ofText "-journal"

def log (file : Path) : Path := file ++ Path.ofText "-wal"

/-- The directory that says the file is in use. -/
def mark (file : Path) : Path := file ++ Path.ofText ".lock"

/-- The longest path of a file or its journal, in bytes. -/
def longestPath : Nat := 512

def notFound : String := "unable to open database file"

def notWritable : String := "attempt to write a readonly database"

/-- The absolute path of a file. Each place on the way has to be there or be free. -/
def find (path : Path) : ExceptT String m Path := do
  let base ← Host.workingDirectory (m := m)
  for place in Path.way base path do
    if longestPath ≤ place.length then throw notFound
    discard <| ExceptT.mk (Host.presence place)
  let file := Path.resolve base path
  if longestPath < (journal file).length then throw notFound
  return file

/-- Finds the file, and makes it if that is allowed. -/
def provide (location : CacheLocation) (path : Path) : ExceptT String m Path := do
  let file ← find path
  if let some template := location.template then
    if !(← isPresent (m := m) template) then throw "disk I/O error"
  if location.access != .create then
    if !(← isPresent (m := m) file) then throw notFound
  ExceptT.mk (Host.makeFile file)
  return file

/-- The first byte of what was left by another run, if anything was. -/
def firstByte (path : Path) : m (Except String (Option UInt8)) := do
  if ← isPresent path then return (← Host.bytesAt path).map List.head? else return .ok none

/-- A journal that starts with a zero byte is no longer needed, nor is any beside a blank file. -/
def clearJournal (location : CacheLocation) (file : Path) (blank : Bool) :
    ExceptT String m Unit := do
  let first : Except String (Option UInt8) ← firstByte (m := m) (journal file)
  match first with
  | .error reason => if !blank then throw reason
  | .ok none => return
  | .ok (some byte) =>
    if blank then
      if location.isWritable then ExceptT.mk (Host.removeFile (journal file))
    else if byte != 0 then
      if !location.isWritable then throw notWritable
      ExceptT.mk (Host.removeFile (journal file))

def clearLog (location : CacheLocation) (file : Path) (blank : Bool) : ExceptT String m Unit := do
  let first ← ExceptT.mk (firstByte (log file))
  if first.isSome then
    if !blank && !location.sharesMemory then throw notFound
    if blank || location.isWritable then ExceptT.mk (Host.removeFile (log file))

/-- Nobody else may use the file. What another run has left beside it is removed. -/
def claim (location : CacheLocation) (file : Path) (blank : Bool) : ExceptT String m Unit := do
  if location.marksUse then
    if ← isPresent (m := m) (mark file) then throw "database is locked"
  clearJournal location file blank
  clearLog location file blank

/-- Keeps a database that has changed. -/
def write (location : CacheLocation) (db : Database) : ExceptT String m Unit := do
  if !location.isWritable then throw notWritable
  if let some file := location.path then
    ExceptT.mk (Host.makeFile (journal file))
    ExceptT.mk (Host.putDatabase file db)
    ExceptT.mk (Host.removeFile (journal file))

/-- A new database is written at once. -/
def create (location : CacheLocation) : ExceptT String m Database := do
  write location .empty
  return .empty

/-- The database of a location, with the location at its absolute path. -/
def read (location : CacheLocation) : ExceptT String m (CacheLocation × Database) := do
  match location.path with
  | none => return (location, ← create location)
  | some path =>
    let file ← provide location path
    let location := { location with path := some file }
    let held : Except String (Option Database) ← Host.databaseAt (m := m) file
    let blank := held matches .ok none
    if !location.immutable then claim location file blank
    match held with
    | .error reason => throw reason
    | .ok (some db) => return (location, db)
    | .ok none => return (location, ← create location)

end CacheFile

def makeDirectoryFor (path : Path) : m (Except String Unit) := do
  let directory := Path.parent path
  if directory = [] then return .ok () else Host.makeDirectory directory

/-- Opens the database at a location. The directory that the text of the location lies in is made
first, whatever the text stands for. -/
def openDatabase (text : String) : m (Except CacheError (CacheLocation × Database)) := do
  match ← makeDirectoryFor (.ofText text) with
  | .error reason => return .error (.directory reason)
  | .ok () =>
    match CacheLocation.ofText text with
    | .error reason => return .error (.database reason)
    | .ok location => return (← (CacheFile.read location).run).mapError .database

def saveDatabase (location : CacheLocation) (db : Database) : m (Except CacheError Unit) := do
  return (← (CacheFile.write location db).run).mapError .database

end RegionalTables.CommandLine
