import RegionalTables.SortedMap
import RegionalTables.Text.Form

/-! The arguments of a raw query string: for each name its values in order of appearance. Blank
values are dropped, so a name given only blank values is absent. -/
namespace RegionalTables

abbrev Arguments := SortedMap String (List String)

namespace Arguments

def add (given : Arguments) (pair : String × String) : Arguments :=
  if pair.2.isEmpty then given
  else given.alter pair.1 fun values => values.getD [] ++ [pair.2]

def ofPairs (pairs : List (String × String)) : Arguments := pairs.foldl add .empty

/-- Leading question marks are no part of the query. -/
def trimmed (raw : String) : List Char := raw.toList.dropWhile (· == '?')

def ofQueryString (raw : String) : Arguments := ofPairs (Text.Form.decode (trimmed raw))

/-- The values of a name, none if it is absent. -/
def values (given : Arguments) (name : String) : List String := (given.find? name).getD []

end Arguments

end RegionalTables
