import RegionalTables.Frame.Basic

/-! Frames as delimited text: a line of headers, then a line for each row, every line with a line
feed at its end. -/
namespace RegionalTables

namespace Delimited

/-- A field that holds one of these must stand in quotes. -/
def needsQuotes (delimiter c : Char) : Bool := c == delimiter || c == '"' || c == '\n' || c == '\r'

/-- Quotes inside a quoted field are written twice. -/
def double (c : Char) : List Char := if c = '"' then ['"', '"'] else [c]

def field (delimiter : Char) (cs : List Char) : List Char :=
  if cs.any (needsQuotes delimiter) then '"' :: cs.flatMap double ++ ['"'] else cs

def line (delimiter : Char) (fields : List String) : List Char :=
  [delimiter].intercalate (fields.map fun s => field delimiter s.toList) ++ ['\n']

end Delimited

namespace Frame

/-- The texts of all lines: the headers, and the cells with nothing for a missing one. -/
def records (f : Frame) : List (List String) :=
  f.headers :: f.rows.map fun cells => cells.map fun c => c.text?.getD ""

def delimitedChars (delimiter : Char) (f : Frame) : List Char :=
  f.records.flatMap (Delimited.line delimiter)

def delimited (delimiter : Char) (f : Frame) : String := String.ofList (f.delimitedChars delimiter)

end Frame

end RegionalTables
