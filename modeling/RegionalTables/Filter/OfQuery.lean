import RegionalTables.Filter.Basic
import RegionalTables.Catalog.Basic
import RegionalTables.Query.Basic

/-! The filter a query stands for. It describes a closed world: a fact passes only where it lies in
a selected cell, so whatever the catalog knows of a measure and the query does not ask for must be
absent from the fact. -/
namespace RegionalTables.Filter

def dimensionPath (measure dimension : String) : String := "path." ++ measure ++ "." ++ dimension

def keywordPath (measure dimension : String) : String := dimensionPath measure dimension ++ ".keyword"

def region (q : Query) : Option Filter :=
  match q.region with
  | .all => none
  | .ids ids => some (oneOf "region_id" ids.toList)

def statistic (q : Query) : Option Filter :=
  if q.data.statistics.isEmpty then none else some (oneOf "statistic" q.data.statistics.keys)

/-- Time is always told by the year; the latest time is settled after retrieval. -/
def time (q : Query) : Option Filter :=
  match q.time with
  | .all | .last => none
  | .year y => some (.term "year" (toString y.toNat))
  | .range low high =>
    some (.range "year" (low.map fun y => (y.toNat : Int)) (high.map fun y => (y.toNat : Int)))

def regionLevel (q : Query) : Option Filter :=
  match q.region, q.level with
  | .all, .levels levels =>
    some (oneOf "region_level" (levels.toList.map fun level => toString level.toNat))
  | _, _ => none

def parent (q : Query) : Option Filter := q.parent.map (.starts "region_id")

def conditions (q : Query) : List Filter :=
  [region q, statistic q, time q, regionLevel q, parent q].filterMap id

/-- A selected dimension is there, with one of its selected values if there are any. -/
def required (measure : String) (part : String × SortedSet String) : Filter :=
  if part.2.isEmpty then .present (dimensionPath measure part.1)
  else oneOf (keywordPath measure part.1) part.2.toList

/-- The declared values of a dimension that are not selected, if some are selected. -/
def otherValues (m : Option Measure) (part : String × SortedSet String) : List String :=
  if part.2.isEmpty then []
  else
    match m.bind (·.dimension? part.1) with
    | some d => (d.values.filter fun v => !part.2.contains v.key).map (·.key)
    | none => []

def excludedValues (measure : String) (m : Option Measure) (part : String × SortedSet String) :
    Option Filter :=
  match otherValues m part with
  | [] => none
  | values => some (.terms (keywordPath measure part.1) values)

def excludedDimensions (measure : String) (m : Option Measure) (breakdown : Breakdown) :
    List Filter :=
  match m with
  | some m => (m.dimensions.keys.filter fun d => !breakdown.contains d).map fun d =>
      .present (dimensionPath measure d)
  | none => []

/-- The facts in the selected cell of one measure. -/
def cell (c : Catalog) (statistic : String) (choice : String × Breakdown) : Filter :=
  let m := c.measure? statistic choice.1
  .bool (.present choice.1 :: choice.2.entries.map (required choice.1))
    (choice.2.entries.filterMap (excludedValues choice.1 m) ++
      excludedDimensions choice.1 m choice.2)
    []

def cells (c : Catalog) (choice : String × MeasureChoice) : Filter :=
  all [.term "statistic" choice.1, any (choice.2.entries.map (cell c choice.1))]

def ofQuery (c : Catalog) (q : Query) : Filter :=
  all (conditions q ++ [any (q.data.statistics.entries.map (cells c))])

end RegionalTables.Filter
