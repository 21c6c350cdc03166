import RegionalTables.SortedMap
import RegionalTables.SortedSet

/-! The catalog of what can be asked for: statistics with their measures, the dimensions a measure
is broken down by, and the values of each dimension. -/
namespace RegionalTables

structure DimensionValue where
  key : String
  name : String
  deriving DecidableEq

structure Dimension where
  key : String
  name : String
  /-- In declared order; of values under one key the first counts. -/
  values : List DimensionValue
  deriving DecidableEq

structure Measure where
  key : String
  name : String
  /-- The region levels the measure is published for; `none` is no restriction. -/
  levels : Option (SortedSet UInt8)
  dimensions : SortedMap String Dimension
  deriving DecidableEq

structure Statistic where
  key : String
  name : String
  description : Option String
  measures : SortedMap String Measure
  deriving DecidableEq

structure Catalog where
  name : String
  statistics : SortedMap String Statistic
  deriving DecidableEq

namespace Dimension

def value? (d : Dimension) (key : String) : Option DimensionValue :=
  d.values.find? (·.key == key)

/-- The display name of a value, which is its key if the value is not declared. -/
def valueName (d : Dimension) (key : String) : String := ((d.value? key).map (·.name)).getD key

end Dimension

namespace Measure

def dimension? (m : Measure) (key : String) : Option Dimension := m.dimensions.find? key

def allowsLevel (m : Measure) (level : UInt8) : Bool :=
  match m.levels with
  | none => true
  | some levels => levels.contains level

end Measure

namespace Statistic

def measure? (s : Statistic) (key : String) : Option Measure := s.measures.find? key

end Statistic

namespace Catalog

def empty (name : String) : Catalog := ⟨name, .empty⟩

def statistic? (c : Catalog) (key : String) : Option Statistic := c.statistics.find? key

def measure? (c : Catalog) (statistic measure : String) : Option Measure :=
  (c.statistic? statistic).bind (·.measure? measure)

def dimension? (c : Catalog) (statistic measure dimension : String) : Option Dimension :=
  (c.measure? statistic measure).bind (·.dimension? dimension)

end Catalog

end RegionalTables
