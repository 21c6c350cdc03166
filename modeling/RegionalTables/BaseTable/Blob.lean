import RegionalTables.Base64
import RegionalTables.BaseTable.Basic
import RegionalTables.Json.Bytes
import RegionalTables.Json.Shape

/-! Base tables as text to be stored: the Base64 of a JSON record. -/
namespace RegionalTables

open Json

def Observation.toValue (o : Observation) : Value := .object [
  ("region_id", .string o.region),
  ("time", .string o.time),
  ("statistic", .string o.statistic),
  ("measure", .string o.measure),
  ("value", o.value.value),
  ("dimensions", .object (o.dimensions.entries.map fun e => (e.1, .string e.2)))]

open Shape in
def Observation.ofTree? : Nat → Tree → Option Observation :=
  record? [["region_id"], ["time"], ["statistic"], ["measure"], ["value"], ["dimensions"]]
    fun depth s => do
      return {
        region := ← s.required 0 string?
        time := ← s.required 1 string?
        statistic := ← s.required 2 string?
        measure := ← s.required 3 string?
        value := ← s.required 4 Cell.ofTree?
        dimensions := ← s.defaulted 5 .empty (map? (fun _ => string?) depth) }

namespace BaseTable

inductive BlobError where
  | base64
  | json
  deriving DecidableEq

def toValue (t : BaseTable) : Value := .object [
  ("rows", .array (t.observations.map Observation.toValue)),
  ("cubes", Value.strings t.cubes)]

open Shape in
def ofTree? : Nat → Tree → Option BaseTable :=
  record? [["rows"], ["cubes"]] fun depth s => do
    return ⟨← s.required 0 (list? Observation.ofTree? depth), ← s.required 1 (strings? depth)⟩

def blob (t : BaseTable) : String :=
  String.ofList (Base64.encode (Text.Utf8.encode t.toValue.chars))

def ofBlob (blob : String) : Except BlobError BaseTable :=
  match Base64.decode? blob.toList with
  | none => .error .base64
  | some bytes =>
    match (Tree.ofBytes? bytes).bind (ofTree? depthLimit) with
    | none => .error .json
    | some table => .ok table

end BaseTable

end RegionalTables
