import RegionalTables.Settings.Basic
import RegionalTables.Toml.Reader

/-! Reading settings from TOML. What is left out has its default. What is unknown is passed over if
all of it is readable. A section may be an array of its options in order. -/
namespace RegionalTables.Settings

open Toml

def unknownReadable (names : List String) (m : Members) : Bool :=
  m.all fun (key, x) => names.contains key || x.readable

/-- The options of a section, each under its name or at its place. A time holds none. -/
def options? (names : List String) : Item → Option (List (Option Item))
  | .table _ members =>
    if unknownReadable names members then some (names.map fun name => Members.get? name members)
    else none
  | .array items => some ((List.range names.length).map fun i => items[i]?)
  | .time => some (names.map fun _ => none)
  | _ => none

def text? (standard : String) : Option Item → Option String
  | none => some standard
  | some (.string s) => some s
  | some _ => none

def optionalText? : Option Item → Option (Option String)
  | none => some none
  | some (.string s) => some (some s)
  | some _ => none

def flag? (standard : Bool) : Option Item → Option Bool
  | none => some standard
  | some (.bool b) => some b
  | some _ => none

def isEmptyItem : Item → Bool
  | .array [] | .table _ [] => true
  | _ => false

/-- A backend is named by a string, or by the key of a table that holds nothing else. -/
def backend? : Option Item → Option CacheBackend
  | none => some .database
  | some (.string s) => CacheBackend.named? s
  | some (.table _ [(name, x)]) => if isEmptyItem x then CacheBackend.named? name else none
  | some _ => none

def section? (standard : α) (read : Item → Option α) : Option Item → Option α
  | none => some standard
  | some x => read x

def schemaSettings? (x : Item) : Option SchemaSettings := do
  match ← options? ["storage_name", "schema_path", "names_path"] x with
  | [name, schema, names] =>
    return ⟨← text? "Regionalstatistik" name, ← optionalText? schema, ← optionalText? names⟩
  | _ => none

def storeSettings? (x : Item) : Option StoreSettings := do
  match ← options? ["index", "facts_path"] x with
  | [index, facts] => return ⟨← text? "genesapi" index, ← optionalText? facts⟩
  | _ => none

def cacheSettings? (x : Item) : Option CacheSettings := do
  match ← options? ["enabled", "backend", "path", "index"] x with
  | [enabled, backend, path, index] =>
    return ⟨← flag? true enabled, ← backend? backend, ← optionalText? path, ← optionalText? index⟩
  | _ => none

def ofMembers? (m : Members) : Option Settings := do
  guard (unknownReadable ["schema", "store", "cache"] m)
  return {
    schema := ← section? {} schemaSettings? (m.get? "schema")
    store := ← section? {} storeSettings? (m.get? "store")
    cache := ← section? {} cacheSettings? (m.get? "cache") }

def read? (text : String) : Option Settings := (Toml.read? text.toList).bind ofMembers?

end RegionalTables.Settings
