import RegionalTables.Json.Shape
import RegionalTables.Json.Text

/-! What a cache keeps: finished renderings, and base tables from which others can be made. -/
namespace RegionalTables

open Json

structure ConcreteEntry where
  content : String
  mimetype : String
  cubes : List String
  /-- The definition of the query. -/
  definition : Document
  source : Option String

structure BaseEntry where
  /-- The blob of a base table. -/
  data : String
  cubes : List String
  /-- The data definition of the query. -/
  definition : Document

inductive CacheEntry where
  | concrete (e : ConcreteEntry)
  | base (e : BaseEntry)

inductive EntryKind where
  | concrete
  | base
  deriving DecidableEq

def EntryKind.name : EntryKind → String
  | .concrete => "concrete"
  | .base => "base"

def EntryKind.named? : String → Option EntryKind
  | "concrete" => some .concrete
  | "base" => some .base
  | _ => none

namespace ConcreteEntry

def members (e : ConcreteEntry) : List (String × Value) :=
  [("content", .string e.content), ("mimetype", .string e.mimetype),
    ("cubes", Value.strings e.cubes), ("definition", e.definition.value)] ++
  (e.source.map fun s => ("urlquery", Value.string s)).toList

open Shape in
def ofTree? (depth : Nat) (t : Tree) : Option ConcreteEntry := do
  let s ← slots? [["content"], ["mimetype"], ["cubes"], ["definition"], ["urlquery"]] t
  return {
    content := ← s.required 0 string?
    mimetype := ← s.required 1 string?
    cubes := ← s.required 2 (strings? depth)
    definition := ← s.required 3 (Document.ofTree? depth)
    source := ← s.defaulted 4 none (nullable? string?) }

end ConcreteEntry

namespace BaseEntry

def members (e : BaseEntry) : List (String × Value) :=
  [("data", .string e.data), ("cubes", Value.strings e.cubes), ("definition", e.definition.value)]

open Shape in
def ofTree? (depth : Nat) (t : Tree) : Option BaseEntry := do
  let s ← slots? [["data"], ["cubes"], ["definition"]] t
  return {
    data := ← s.required 0 string?
    cubes := ← s.required 1 (strings? depth)
    definition := ← s.required 2 (Document.ofTree? depth) }

end BaseEntry

namespace CacheEntry

def kind : CacheEntry → EntryKind
  | concrete _ => .concrete
  | base _ => .base

def members : CacheEntry → List (String × Value)
  | concrete e => e.members
  | base e => e.members

/-- The written form: the kind, then what the kind holds. -/
def toValue (e : CacheEntry) : Value := .object (("kind", .string e.kind.name) :: e.members)

def text (e : CacheEntry) : String := e.toValue.text

def ofKind? (depth : Nat) (t : Tree) : EntryKind → Option CacheEntry
  | .concrete => (ConcreteEntry.ofTree? depth t).map concrete
  | .base => (BaseEntry.ofTree? depth t).map base

def kind? (t : Tree) : Option EntryKind := (Shape.string? t).bind EntryKind.named?

/-- The kind an entry names and the rest of it. An array names it first. -/
def tagged? : Tree → Option (EntryKind × Tree)
  | .object members =>
    match members.filter fun m => m.1 == some "kind" with
    | [m] => (kind? m.2).map fun k => (k, .object (members.filter fun m => m.1 != some "kind"))
    | _ => none
  | .array (tag :: items) => (kind? tag).map fun k => (k, .array items)
  | _ => none

/-- Reads an entry in its written form. All parts must be readable, also those nobody asks for. -/
def ofTree? (depth : Nat) (t : Tree) : Option CacheEntry := do
  let _ ← Value.ofTree? depth t
  let (kind, rest) ← tagged? t
  ofKind? depth rest kind

def read? (text : String) : Option CacheEntry := (Tree.read? text.toList).bind (ofTree? depthLimit)

end CacheEntry

end RegionalTables
