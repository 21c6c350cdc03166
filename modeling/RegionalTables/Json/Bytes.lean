import RegionalTables.Json.Tree
import RegionalTables.Text.Utf8

/-! Reading the bytes of a JSON text. Bytes that are not UTF-8 make a string denote nothing, as half
of a surrogate pair does, and are an error between strings. -/
namespace RegionalTables.Json.Tree

/-- What an invalid run is read as: no escape may start before it, and the second half of a pair
follows, which nothing after it can complete. -/
def invalidRun : List Char := [' ', '\\', 'u', 'd', 'c', '0', '0']

def charsOf (bytes : List UInt8) : List Char :=
  (Text.Utf8.decode bytes).flatMap fun
    | some c => [c]
    | none => invalidRun

def ofBytes? (bytes : List UInt8) : Option Tree := read? (charsOf bytes)

end RegionalTables.Json.Tree
