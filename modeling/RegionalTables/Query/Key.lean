import RegionalTables.Query.Basic
import RegionalTables.Json.Text
import RegionalTables.Sha256
import RegionalTables.Text.Utf8

/-! What identifies a query. The definition holds every field but the source, the data definition
only those that decide the observations; a key is the digest of a definition's text. -/
namespace RegionalTables

def RegionChoice.document : RegionChoice → Json.Document
  | .all => .string "all"
  | .ids regions => .strings regions.toList

def LevelChoice.document : LevelChoice → Json.Document
  | .all => .string "all"
  | .levels numbers => .array (numbers.toList.map .byte)

namespace Query

def parentDocument (q : Query) : Json.Document :=
  match q.parent with
  | some region => .string region
  | none => .null

def definition (q : Query) : Json.Document := .object (.ofAscending [
  ("data", q.data.document),
  ("delimiter", .string (String.singleton q.delimiter.char)),
  ("dformat", .string q.timeField.name),
  ("format", .string q.format.name),
  ("labels", .string q.labels.text),
  ("layout", .string q.layout.name),
  ("level", q.level.document),
  ("parent", q.parentDocument),
  ("region", q.region.document),
  ("sort", .string q.sort.name),
  ("time", .string q.time.text)])

def dataDefinition (q : Query) : Json.Document := .object (.ofAscending [
  ("data", q.data.document),
  ("dformat", .string q.timeField.name),
  ("level", q.level.document),
  ("parent", q.parentDocument),
  ("region", q.region.document),
  ("time", .string q.time.text)])

def keyOf (definition : Json.Document) : String :=
  Sha256.hex (Sha256.digest (Text.Utf8.encode definition.value.chars))

/-- Under this key lies the finished answer. -/
def renderKey (q : Query) : String := keyOf q.definition

/-- Under this key lie the observations, whatever their presentation. -/
def dataKey (q : Query) : String := keyOf q.dataDefinition

end Query

end RegionalTables
