import RegionalTables.Cache.File
import RegionalTables.CommandLine.Run

/-! The program on the file system. -/
namespace RegionalTables

open Text.Utf8 (lossyText)

def reasonOf (e : IO.Error) : String := toString e

def attempt (action : IO α) : IO (Except String α) := do
  return (← action.toBaseIO).mapError reasonOf

def bytesOf (path : Path) : IO (Except String (List UInt8)) :=
  attempt do return (← IO.FS.readBinFile (lossyText path)).toList

/-- The lines of a file; none if it cannot be read. -/
def linesOf (path : Path) : IO (List String) := do
  return match ← bytesOf path with
    | .ok bytes => (lossyText bytes).splitOn "\n"
    | .error _ => []

/-- The number of the user in the status of a process. -/
def userIn (status : List String) : Option String :=
  status.findSome? fun line =>
    match line.splitOn "\t" with
    | "Uid:" :: user :: _ => some user
    | _ => none

/-- The home directory of a user in a list of accounts, one a line. -/
def homeIn (accounts : List String) (user : String) : Option String :=
  accounts.findSome? fun line =>
    match line.splitOn ":" with
    | [_, _, number, _, _, home, _] => if number = user then some home else none
    | _ => none

instance : Host IO where
  valueOf name := IO.getEnv name
  accountHome := do
    let accounts ← linesOf (.ofText "/etc/passwd")
    return (userIn (← linesOf (.ofText "/proc/self/status"))).bind (homeIn accounts)
  workingDirectory := return .ofText (← IO.currentDir).toString
  presence path := do
    return match ← (IO.FS.Handle.mk (lossyText path) .read).toBaseIO with
      | .ok _ => .ok true
      | .error (.noFileOrDirectory ..) => .ok false
      | .error e => .error (reasonOf e)
  bytesAt := bytesOf
  makeDirectory path := attempt (IO.FS.createDirAll (lossyText path))
  makeFile path := attempt do discard <| IO.FS.Handle.mk (lossyText path) .append
  removeFile path := attempt (IO.FS.removeFile (lossyText path))
  databaseAt path := do
    return (← bytesOf path).bind fun bytes =>
      if Database.isBlank bytes then .ok none
      else
        match Database.ofBytes? bytes with
        | some db => .ok (some db)
        | none => .error "file is not a database"
  putDatabase path db :=
    attempt (IO.FS.writeBinFile (lossyText path) ⟨(Text.Utf8.encode db.toValue.chars).toArray⟩)

end RegionalTables

def main (arguments : List String) : IO UInt32 := do
  let done ← RegionalTables.CommandLine.run arguments
  (← IO.getStdout).putStr done.out
  (← IO.getStderr).putStr done.err
  return done.code
