import RegionalTables.Catalog.Basic
import RegionalTables.Json.Shape

/-! Reading a catalog from its JSON definition. The definition files each node under a key, which
the node may replace by one of its own; a node without a name goes by its key. -/
namespace RegionalTables

open Json

/-- The key and name a node declares for itself. -/
structure Declared where
  key : Option String
  name : Option String

def Declared.keyUnder (d : Declared) (filedKey : String) : String := d.key.getD filedKey

def Declared.nameUnder (d : Declared) (filedKey : String) : String :=
  d.name.getD (d.keyUnder filedKey)

structure DimensionRecord where
  declared : Declared
  values : List DimensionValue

structure MeasureRecord where
  declared : Declared
  levels : Option (List Nat)
  dimensions : SortedMap String DimensionRecord

structure StatisticRecord where
  declared : Declared
  description : Option String
  measures : SortedMap String MeasureRecord

/-- Nodes under their own keys; of several with one key the last is kept. -/
def fileUnder (key : α → String) (nodes : List α) : SortedMap String α :=
  .ofList (nodes.map fun n => (key n, n))

def Dimension.ofRecord (filedKey : String) (r : DimensionRecord) : Dimension where
  key := r.declared.keyUnder filedKey
  name := r.declared.nameUnder filedKey
  values := r.values

def Measure.ofRecord (filedKey : String) (r : MeasureRecord) : Measure where
  key := r.declared.keyUnder filedKey
  name := r.declared.nameUnder filedKey
  levels := r.levels.map fun l => .ofList (l.map (·.toUInt8))
  dimensions := fileUnder Dimension.key (r.dimensions.entries.map fun e => .ofRecord e.1 e.2)

def Statistic.ofRecord (filedKey : String) (r : StatisticRecord) : Statistic where
  key := r.declared.keyUnder filedKey
  name := r.declared.nameUnder filedKey
  description := r.description
  measures := fileUnder Measure.key (r.measures.entries.map fun e => .ofRecord e.1 e.2)

namespace Catalog

def ofRecords (name : String) (records : SortedMap String StatisticRecord) : Catalog where
  name := name
  statistics := fileUnder Statistic.key (records.entries.map fun e => .ofRecord e.1 e.2)

open Shape

def readDeclared? (s : Slots) : Option Declared := do
  return ⟨← optional s 0 string?, ← optional s 1 string?⟩

def readValue? : Nat → Tree → Option DimensionValue := record? [["key"], ["name"]] fun _ s => do
  let key ← s.required 0 string?
  let name ← optional s 1 string?
  return ⟨key, name.getD key⟩

def readDimension? : Nat → Tree → Option DimensionRecord :=
  record? [["key"], ["name"], ["values"]] fun depth s => do
    return ⟨← readDeclared? s, ← s.defaulted 2 [] (list? readValue? depth)⟩

def readMeasure? : Nat → Tree → Option MeasureRecord :=
  record? [["key"], ["name"], ["region_levels"], ["dimensions"]] fun depth s => do
    return ⟨← readDeclared? s, ← s.defaulted 2 none (nullable? (list? (fun _ => byte?) depth)),
      ← s.defaulted 3 .empty (map? readDimension? depth)⟩

def readStatistic? : Nat → Tree → Option StatisticRecord :=
  record? [["key"], ["name"], ["description", "title_de"], ["measures"]] fun depth s => do
    return ⟨← readDeclared? s, ← s.defaulted 2 none (nullable? string?),
      ← s.defaulted 3 .empty (map? readMeasure? depth)⟩

def ofTree? (name : String) (depth : Nat) (t : Tree) : Option Catalog :=
  (map? readStatistic? depth t).map (ofRecords name)

/-- Reads the text of a definition. -/
def read? (name text : String) : Option Catalog :=
  (Tree.read? text.toList).bind (ofTree? name depthLimit)

end Catalog

end RegionalTables
