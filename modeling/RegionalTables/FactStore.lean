import RegionalTables.Filter.Basic
import RegionalTables.Text.CharClass
import RegionalTables.Text.Utf8

/-! Stores of facts: facts in memory, or a file with one fact on each line. A line that is no fact
is reported in its place whatever the filter. -/
namespace RegionalTables

inductive StoreError where
  | unreadable (path reason : String)
  | invalid (path : String) (line : Nat) (reason : String)
  | notAnObject (path : String) (line : Nat)
  deriving DecidableEq

def StoreError.message : StoreError → String
  | .unreadable path reason => "Failed to read facts from " ++ path ++ ": " ++ reason
  | .invalid path line reason =>
    "Invalid fact at " ++ path ++ ":" ++ toString line ++ ": " ++ reason
  | .notAnObject path line => "Fact at " ++ path ++ ":" ++ toString line ++ " is not an object"

inductive FactSource where
  | memory (facts : List Fact)
  /-- The bytes of a file, or why there are none. -/
  | file (path : String) (content : Except String (List UInt8))

structure FactStore where
  index : String
  source : FactSource

namespace FactStore

/-- Lines without their ends; text after the last line end is a line unless it is empty. `line`
holds the current line in reverse. -/
def linesFrom (done : List (List UInt8)) (line : List UInt8) : List UInt8 → List (List UInt8)
  | [] => (if line.isEmpty then done else line.reverse :: done).reverse
  | b :: rest =>
    if b = 0x0A then
      let line := match line with
        | 0x0D :: start => start
        | line => line
      linesFrom (line.reverse :: done) [] rest
    else linesFrom done (b :: line) rest

def lines (bytes : List UInt8) : List (List UInt8) := linesFrom [] [] bytes

/-- The fact on a line, or `none` for a blank line. -/
def readLine (path : String) (number : Nat) (bytes : List UInt8) : Except StoreError (Option Fact) :=
  match Text.Utf8.decode? bytes with
  | none => .error (.unreadable path "stream did not contain valid UTF-8")
  | some cs =>
    if cs.all Text.isBlank then .ok none
    else
      match Json.Document.read? cs with
      | none => .error (.invalid path number "invalid JSON")
      | some d =>
        match d.members? with
        | some fact => .ok (some fact)
        | none => .error (.notAnObject path number)

/-- What a line contributes to a search. -/
def searchLine (path : String) (filter : Filter) (line : List UInt8 × Nat) :
    Option (Except StoreError Fact) :=
  match readLine path (line.2 + 1) line.1 with
  | .ok (some fact) => if filter.accepts fact then some (.ok fact) else none
  | .ok none => none
  | .error e => some (.error e)

/-- The accepted facts in order, with the errors met between them. -/
def search (store : FactStore) (filter : Filter) :
    Except StoreError (List (Except StoreError Fact)) :=
  match store.source with
  | .memory facts => .ok ((facts.filter filter.accepts).map .ok)
  | .file path (.ok bytes) => .ok ((lines bytes).zipIdx.filterMap (searchLine path filter))
  | .file path (.error reason) => .error (.unreadable path reason)

/-- The accepted facts, or the first error. -/
def facts (store : FactStore) (filter : Filter) : Except StoreError (List Fact) := do
  (← store.search filter).mapM id

end FactStore

end RegionalTables
