import RegionalTables.Frame.Basic
import RegionalTables.Json.Text

/-! Frames as JSON: the name and type of each column, and an object for each row with the headers as
keys in column order. -/
namespace RegionalTables

inductive ColumnType where
  | any
  | integer
  | number
  | string
  deriving DecidableEq

def ColumnType.name : ColumnType → String
  | .any => "any"
  | .integer => "integer"
  | .number => "number"
  | .string => "string"

namespace Cell

def isInteger : Cell → Bool
  | integer _ => true
  | _ => false

def isNumber : Cell → Bool
  | integer _ | float _ => true
  | _ => false

def isText : Cell → Bool
  | text _ => true
  | _ => false

end Cell

/-- The narrowest type of all cells that are there. -/
def Column.type (c : Column) : ColumnType :=
  let present := c.cells.filter fun cell => !cell.isMissing
  if present.isEmpty then .any
  else if present.all Cell.isInteger then .integer
  else if present.all Cell.isNumber then .number
  else if present.all Cell.isText then .string
  else .any

namespace Frame

open Json

def schema (f : Frame) : List Value :=
  f.all.map fun c => .object [("name", .string c.header), ("type", .string c.type.name)]

def rowValue (f : Frame) (i : Nat) : Value :=
  .object (f.all.map fun c => (c.header, (c.cell i).value))

def toValue (f : Frame) : Value := .object [
  ("schema", .array f.schema),
  ("data", .array ((List.range f.length).map f.rowValue))]

def jsonText (f : Frame) : String := f.toValue.text

end Frame

end RegionalTables
