import RegionalTables.Cache.Basic

/-! A cache database: a row for each key with the kind of the entry and its text. -/
namespace RegionalTables

structure Row where
  kind : EntryKind
  text : String
  deriving DecidableEq

structure Database where
  rows : SortedMap String Row
  deriving DecidableEq

/-- What a database holds. -/
structure Statistics where
  concrete : Nat
  base : Nat
  /-- The length of all texts. -/
  size : Nat
  deriving DecidableEq

/-- The characters of a text; a NUL would end it. -/
def Row.length (r : Row) : Nat := (r.text.toList.takeWhile (· != '\x00')).length

namespace Database

def empty : Database := ⟨.empty⟩

instance : Inhabited Database := ⟨empty⟩

instance : Cache Database where
  get db key :=
    match db.rows.find? key with
    | none => .ok none
    | some row =>
      match CacheEntry.read? row.text with
      | some e => .ok (some e)
      | none => .error .unreadable
  set db key e := ⟨db.rows.insert key ⟨e.kind, e.text⟩⟩

/-- Removes a key, and tells whether it was there. -/
def delete (db : Database) (key : String) : Bool × Database :=
  (db.rows.contains key, ⟨db.rows.erase key⟩)

/-- Removes everything, and tells how much it was. -/
def clear (db : Database) : Nat × Database := (db.rows.size, empty)

def count (db : Database) (kind : EntryKind) : Nat := db.rows.values.countP (·.kind == kind)

def statistics (db : Database) : Statistics where
  concrete := db.count .concrete
  base := db.count .base
  size := (db.rows.values.map Row.length).foldr (· + ·) 0

end Database

end RegionalTables
