import RegionalTables.Catalog.View
import RegionalTables.Cell
import RegionalTables.Fact
import RegionalTables.Query.Basic

/-! The base table of a query: one observation for each selected measure a fact holds. It is shared
by all presentations of the same data. -/
namespace RegionalTables

structure Observation where
  region : String
  time : String
  statistic : String
  measure : String
  value : Cell
  /-- The value of each selected dimension the fact is broken down by. -/
  dimensions : SortedMap String String
  deriving DecidableEq

structure BaseTable where
  observations : List Observation
  /-- The cubes the facts come from, in order of first appearance. -/
  cubes : List String
  deriving DecidableEq

namespace Fact

open Json

/-- A measure is held plainly, or as the `value` of an object. -/
def unwrap : Value → Cell
  | .object members => ((SortedMap.findEntries "value" members).map Cell.ofValue).getD .missing
  | v => Cell.ofValue v

def measured (f : Fact) (measure : String) : Cell := ((f.get? measure).map unwrap).getD .missing

/-- The value of a dimension, which is held flat or on a path below its measure. -/
def dimension? (f : Fact) (measure dimension : String) : Option String :=
  match f.text? dimension with
  | some value => some value
  | none =>
    (f.get? "path").bind fun paths =>
      (paths.get? measure).bind fun path => (path.get? dimension).bind (·.scalarText?)

end Fact

namespace BaseTable

def empty : BaseTable := ⟨[], []⟩

instance : Inhabited BaseTable := ⟨empty⟩

/-- The fact's observation of a measure, if it holds one. -/
def observation? (time : TimeField) (statistic measure : String) (m : Measure) (f : Fact) :
    Option Observation :=
  let value := f.measured measure
  if value.isMissing then none
  else some {
    region := (f.text? "region_id").getD ""
    time := (f.text? time.name).getD ""
    statistic, measure, value
    dimensions := m.dimensions.filterMap fun key _ => f.dimension? measure key }

/-- The greatest time there is. -/
def latest (l : List Observation) : String :=
  l.foldl (fun time o => if time < o.time then o.time else time) ""

def keepLatest (l : List Observation) : List Observation :=
  let time := latest l
  l.filter (·.time == time)

def ofMeasure (q : Query) (facts : List Fact) (statistic measure : String) (m : Measure) :
    List Observation :=
  let all := facts.filterMap (observation? q.timeField statistic measure m)
  if q.time = .last then keepLatest all else all

def ofStatistic (q : Query) (facts : List Fact) (statistic : String) (s : Statistic) :
    List Observation :=
  let own := facts.filter fun f => f.text? "statistic" == some statistic
  s.measures.entries.flatMap fun (measure, m) => ofMeasure q own statistic measure m

def cubesOf (facts : List Fact) : List String := (facts.filterMap (·.text? "cube")).eraseDups

/-- Everything the facts hold of the measures and dimensions in `view`. -/
def ofFacts (view : Catalog) (q : Query) (facts : List Fact) : BaseTable where
  observations := view.statistics.entries.flatMap fun (statistic, s) => ofStatistic q facts statistic s
  cubes := cubesOf facts

end BaseTable

end RegionalTables
