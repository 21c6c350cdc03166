import RegionalTables.Cache.Database
import RegionalTables.Json.Bytes

/-! The file form of a cache database: one JSON object with a list of rows. -/
namespace RegionalTables

open Json

def Row.toValue (key : String) (r : Row) : Value := Value.strings [key, r.kind.name, r.text]

open Shape in
def Row.ofTree? (depth : Nat) (t : Tree) : Option (String × Row) := do
  match ← strings? depth t with
  | [key, kind, text] => return (key, ⟨← EntryKind.named? kind, text⟩)
  | _ => none

namespace Database

def toValue (db : Database) : Value :=
  .object [("cached", .array (db.rows.entries.map fun e => e.2.toValue e.1))]

open Shape in
def ofTree? : Nat → Tree → Option Database :=
  record? [["cached"]] fun depth s => do
    return ⟨.ofList (← s.required 0 (list? Row.ofTree? depth))⟩

def ofBytes? (bytes : List UInt8) : Option Database :=
  (Tree.ofBytes? bytes).bind (ofTree? depthLimit)

/-- A file of a single byte is as blank as an empty one. -/
def isBlank (bytes : List UInt8) : Bool := bytes.length ≤ 1

end Database

end RegionalTables
