import RegionalTables.Catalog.Basic
import RegionalTables.Catalog.RegionNames
import RegionalTables.Query.Reading

/-! Checking a query against the catalog and the known regions. The checks run in a fixed order,
in key order within each, and the first failure is the answer. -/
namespace RegionalTables

namespace Catalog

def checkDimension (measure : String) (m : Measure) (part : String × SortedSet String) :
    Except Rejection Unit :=
  match m.dimension? part.1 with
  | none => .error (.unknownDimension measure part.1)
  | some d =>
    match part.2.toList.find? fun v => (d.value? v).isNone with
    | some v => .error (.unknownValue part.1 v)
    | none => .ok ()

def checkMeasure (statistic : String) (s : Statistic) (choice : String × Breakdown) :
    Except Rejection Unit :=
  match s.measure? choice.1 with
  | none => .error (.unknownMeasure statistic choice.1)
  | some m => choice.2.entries.forM (checkDimension choice.1 m)

def checkStatistic (c : Catalog) (choice : String × MeasureChoice) : Except Rejection Unit :=
  match c.statistic? choice.1 with
  | none => .error (.unknownStatistic choice.1)
  | some s => choice.2.entries.forM (checkMeasure choice.1 s)

def checkSelection (c : Catalog) (selection : Selection) : Except Rejection Unit :=
  selection.statistics.entries.forM c.checkStatistic

/-- The lowest level the measure is not published for. -/
def checkLevels (c : Catalog) (levels : SortedSet UInt8) (choice : String × String × Breakdown) :
    Except Rejection Unit :=
  match c.measure? choice.1 choice.2.1 with
  | none => .ok ()
  | some m =>
    match levels.toList.find? fun level => !m.allowsLevel level with
    | some level => .error (.levelNotAvailable choice.2.1 level)
    | none => .ok ()

def checkLevelChoice (c : Catalog) (q : Query) : Except Rejection Unit :=
  match q.level with
  | .all => .ok ()
  | .levels levels => q.data.measures.forM (c.checkLevels levels)

def checkParent (names : RegionNames) : Option String → Except Rejection Unit
  | some region => if names.contains region then .ok () else .error (.unknownParent region)
  | none => .ok ()

def checkRegions (names : RegionNames) : RegionChoice → Except Rejection Unit
  | .all => .ok ()
  | .ids ids =>
    match ids.toList.find? fun region => !names.contains region with
    | some region => .error (.unknownRegion region)
    | none => .ok ()

/-- Accepts the query, or gives the first thing it names that does not exist. -/
def check (c : Catalog) (names : RegionNames) (q : Query) : Except Rejection Unit := do
  c.checkSelection q.data
  c.checkLevelChoice q
  checkParent names q.parent
  checkRegions names q.region

/-- Reads the text of a query and checks it. -/
def parse (c : Catalog) (names : RegionNames) (text : String) : Except Rejection Query := do
  let q ← Query.read text
  c.check names q
  return q

end Catalog

end RegionalTables
