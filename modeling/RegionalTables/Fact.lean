import RegionalTables.Json.Text
import RegionalTables.Text.Split

/-! Facts, the records of a store: JSON objects whose fields are found by name or by dotted path. -/
namespace RegionalTables

abbrev Fact := SortedMap String Json.Document

namespace Fact

open Json

def document (f : Fact) : Document := .object f

def get? (f : Fact) (key : String) : Option Value := (f.find? key).map (·.value)

/-- Follows keys through nested objects. -/
def follow? (v : Value) : List String → Option Value
  | [] => some v
  | key :: path => (v.get? key).bind (follow? · path)

def pathOf (field : String) : List String := (Text.split '.' field.toList).map String.ofList

def keywordSuffix : List Char := ".keyword".toList

/-- The field name without the suffix that marks exact matching. -/
def plainName (field : String) : String :=
  let cs := field.toList
  if keywordSuffix.isSuffixOf cs then String.ofList (cs.take (cs.length - keywordSuffix.length))
  else field

/-- A field by its whole name, else by the path its dots spell. One exact-match suffix is ignored. -/
def field? (f : Fact) (field : String) : Option Value :=
  let name := plainName field
  match f.get? name with
  | some v => some v
  | none =>
    match pathOf name with
    | key :: path => (f.get? key).bind (follow? · path)
    | [] => none

end Fact

namespace Json.Value

/-- The text of a scalar; `null` and compound values have none. -/
def scalarText? : Value → Option String
  | .string s => some s
  | .number n => some n.text
  | .bool b => some (if b then "true" else "false")
  | _ => none

/-- A number, or a string that spells one. -/
def number? : Value → Option Binary64
  | .number n => some n.toBinary64
  | .string s => Binary64.ofText? s
  | _ => none

end Json.Value

namespace Fact

/-- The text of a field found by its whole name. -/
def text? (f : Fact) (key : String) : Option String := (f.get? key).bind (·.scalarText?)

def fieldText? (f : Fact) (field : String) : Option String :=
  (f.field? field).bind (·.scalarText?)

def fieldNumber? (f : Fact) (field : String) : Option Binary64 := (f.field? field).bind (·.number?)

/-- The field is there and not `null`. -/
def present (f : Fact) (field : String) : Bool :=
  match f.field? field with
  | some v => !v.isNull
  | none => false

end Fact

end RegionalTables
