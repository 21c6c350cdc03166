import RegionalTables.SortedMap
import RegionalTables.SortedSet
import RegionalTables.Json.Shape

/-! Which data a query asks for: values under dimensions under measures under statistics, all in
key order. -/
namespace RegionalTables

/-- The values asked for in each dimension. No value means any value. -/
abbrev Breakdown := SortedMap String (SortedSet String)

/-- The breakdown of each measure. No dimension means the measure's total. -/
abbrev MeasureChoice := SortedMap String Breakdown

structure Selection where
  statistics : SortedMap String MeasureChoice
  deriving DecidableEq

namespace Selection

def empty : Selection := ⟨.empty⟩

instance : Inhabited Selection := ⟨empty⟩

def statistic? (s : Selection) (key : String) : Option MeasureChoice := s.statistics.find? key

def measure? (s : Selection) (statistic measure : String) : Option Breakdown :=
  (s.statistic? statistic).bind (·.find? measure)

def addValues (b : Breakdown) (part : String × List String) : Breakdown :=
  b.alter part.1 fun values => (values.getD .empty).insertAll part.2

/-- Merges a measure with what is already selected of it. -/
def insert (s : Selection) (statistic measure : String) (parts : List (String × List String)) :
    Selection :=
  ⟨s.statistics.alter statistic fun measures =>
    (measures.getD .empty).alter measure fun breakdown =>
      parts.foldl addValues (breakdown.getD .empty)⟩

/-- The selected statistic and measure keys, in key order. -/
def measures (s : Selection) : List (String × String × Breakdown) :=
  s.statistics.entries.flatMap fun (statistic, measures) =>
    measures.entries.map fun (measure, breakdown) => (statistic, measure, breakdown)

def documentOfBreakdown (b : Breakdown) : Json.Document :=
  .object (b.map fun _ values => .strings values.toList)

def documentOfMeasures (m : MeasureChoice) : Json.Document :=
  .object (m.map fun _ b => documentOfBreakdown b)

def document (s : Selection) : Json.Document :=
  .object (s.statistics.map fun _ m => documentOfMeasures m)

open Json.Shape in
/-- Reads a selection in its written form; repeated values count once. -/
def ofTree? (depth : Nat) (t : Json.Tree) : Option Selection :=
  let values (depth : Nat) (t : Json.Tree) : Option (SortedSet String) :=
    (strings? depth t).map .ofList
  (map? (map? (map? values)) depth t).map Selection.mk

end Selection

end RegionalTables
