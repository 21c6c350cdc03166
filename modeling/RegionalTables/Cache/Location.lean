import RegionalTables.Path
import RegionalTables.Text.Percent

/-! Where a cache database is kept. Its location is the path of a file, or an address: `file:`, a
path, and after a question mark options such as `mode=ro`. The parts of an address may hold percent
escapes. Up to a `#` all of it counts. -/
namespace RegionalTables

/-- What may be done with the file of a database. -/
inductive Access where
  | read
  | write
  /-- The file is also made where there is none. -/
  | create
  deriving DecidableEq

def Access.rank : Access → Nat
  | read => 0
  | write => 1
  | create => 2

structure CacheLocation where
  /-- Without a path the database lasts as long as the program runs. -/
  path : Option Path
  access : Access
  /-- The file is taken for one that nobody changes. -/
  immutable : Bool := false
  /-- The file whose permissions a new one takes. It has to be there. -/
  template : Option Path := none
  /-- While the file is in use, a directory beside it says so. -/
  marksUse : Bool := false
  /-- Users of the file can share memory. Without that, no log can be read. -/
  sharesMemory : Bool := true
  deriving DecidableEq

namespace CacheLocation

open Text.Utf8 (lossyText)

def isWritable (l : CacheLocation) : Bool := l.access != .read && !l.immutable

inductive Mode where
  | memory
  | file (access : Access)
  deriving DecidableEq

def Mode.named? : String → Option Mode
  | "ro" => some (.file .read)
  | "rw" => some (.file .write)
  | "rwc" => some (.file .create)
  | "memory" => some .memory
  | _ => none

/-- A mode may narrow the access that an earlier one gives, not widen it. -/
def Mode.allows : Mode → Mode → Bool
  | .file earlier, .file later => later.rank ≤ earlier.rank
  | _, _ => true

/-- A way to read and write files. -/
inductive FileSystem where
  | plain
  /-- Nothing says that a file is in use. -/
  | silent
  /-- A directory beside a file says that the file is in use. -/
  | marking
  /-- Files last as long as the program runs. -/
  | memory
  deriving DecidableEq

def FileSystem.named? : String → Option FileSystem
  | "unix" | "unix-excl" => some .plain
  | "unix-none" => some .silent
  | "unix-dotfile" => some .marking
  | "memdb" => some .memory
  | _ => none

structure Options where
  mode : Mode := .file .create
  system : String := "unix"

def Options.apply (o : Options) : String × String → Except String Options
  | ("mode", value) =>
    match Mode.named? value with
    | none => .error ("no such access mode: " ++ value)
    | some mode =>
      if o.mode.allows mode then .ok { o with mode := mode }
      else .error ("access mode not allowed: " ++ value)
  | ("cache", value) =>
    if value = "shared" ∨ value = "private" then .ok o else .error ("no such cache mode: " ++ value)
  | ("vfs", value) => .ok { o with system := value }
  | _ => .ok o

def numberIn (base : Nat) (bytes : List UInt8) : Nat :=
  let digits := (bytes.map Text.Percent.hexValue?).takeWhile (·.any (·.toNat < base))
  digits.foldl (fun n digit => n * base + (digit.getD 0).toNat) 0

/-- The number at the start of a value. It has at most 31 bits. -/
def leadingNumber (value : List UInt8) : Nat :=
  let n := match (lossyText value).toList with
    | '0' :: 'x' :: _ | '0' :: 'X' :: _ => numberIn 16 (value.drop 2)
    | _ => numberIn 10 value
  if n < 0x80000000 then n else 0

/-- Other words mean no. Of a number the low byte counts. -/
def isYes (value : List UInt8) : Bool :=
  ["yes", "true", "on"].contains (lossyText value).toLower || leadingNumber value % 256 != 0

/-- A part of an address. An escaped NUL ends it. -/
def part (cs : List Char) : List UInt8 :=
  (Text.Percent.decode (Text.Utf8.encode cs)).takeWhile (· != 0)

/-- Options without a name are none. -/
def optionsOf (cs : List Char) : List (String × List UInt8) :=
  let pairs := (Text.split '&' cs).map fun text =>
    let (name, value) := (Text.cut? '=' text).getD (text, [])
    (lossyText (part name), part value)
  pairs.filter (·.1 != "")

/-- The path of an address with all that follows. After two slashes the name of this host may stand
before it. What stands there ends at the next slash only. -/
def afterHost (cs : List Char) : Except String (List Char) :=
  match cs with
  | '/' :: '/' :: rest =>
    let host := String.ofList (rest.takeWhile (· != '/'))
    if host = "" ∨ host = "localhost" then .ok (rest.dropWhile (· != '/'))
    else .error ("invalid uri authority: " ++ host)
  | _ => .ok cs

/-- Two paths stand for no file. -/
def isFile (path : Path) : Bool := path != [] && path != Path.ofText ":memory:"

/-- The longest path of a file in memory, in bytes. -/
def longestMemoryPath : Nat := 1016

def ofOptions (path : Path) (given : List (String × List UInt8)) :
    Except String CacheLocation := do
  let o ← (given.map fun (name, value) => (name, lossyText value)).foldlM Options.apply {}
  match FileSystem.named? o.system, o.mode with
  | none, _ => .error ("no such vfs: " ++ o.system)
  | some _, .memory => return { path := none, access := .create }
  | some system, .file access =>
    if !isFile path then return { path := none, access }
    let isSet (name : String) : Bool := (given.lookup name).any isYes
    let immutable := isSet "immutable"
    if system = .memory then
      if longestMemoryPath < path.length then throw "unable to open database file"
      return { path := none, access, immutable }
    let locks := !isSet "nolock"
    return {
      path
      access
      immutable
      template := given.lookup "modeof"
      marksUse := system = .marking && locks
      sharesMemory := system = .plain && locks }

/-- What follows `file:` in an address. -/
def ofAddress (cs : List Char) : Except String CacheLocation := do
  let cs := (← afterHost cs).takeWhile (· != '#')
  ofOptions (part (cs.takeWhile (· != '?'))) (optionsOf ((cs.dropWhile (· != '?')).drop 1))

/-- Reads a location, or tells why there can be no database. -/
def ofText (text : String) : Except String CacheLocation :=
  if '\x00' ∈ text.toList then .error "nul byte found in provided data"
  else
    match text.toList with
    | 'f' :: 'i' :: 'l' :: 'e' :: ':' :: address => ofAddress address
    | _ => ofOptions (Path.ofText text) []

end CacheLocation

end RegionalTables
