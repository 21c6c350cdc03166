import RegionalTables.Catalog.Basic
import RegionalTables.Query.Selection

/-! The part of a catalog a selection names. Values stay whole, so that any value of a selected
dimension keeps its name. -/
namespace RegionalTables

def Measure.restrict (m : Measure) (breakdown : Breakdown) : Measure :=
  { m with dimensions := m.dimensions.filterMap fun key d =>
      if breakdown.contains key then some d else none }

def Statistic.restrict (s : Statistic) (choice : MeasureChoice) : Statistic :=
  { s with measures := s.measures.filterMap fun key m => (choice.find? key).map m.restrict }

def Catalog.restrict (c : Catalog) (selection : Selection) : Catalog :=
  { c with statistics := c.statistics.filterMap fun key s =>
      (selection.statistic? key).map s.restrict }

end RegionalTables
