import RegionalTables.Catalog.Basic
import RegionalTables.Catalog.RegionNames
import RegionalTables.Frame.Basic
import RegionalTables.Query.Basic

/-! How a base table is shown: the query decides the form, the catalog and the region names give
the display names. -/
namespace RegionalTables

structure Presentation where
  catalog : Catalog
  names : RegionNames
  query : Query

namespace Field

def regionId : String := "region_id"
def regionName : String := "region_name"
def statistic : String := "statistic"
def measure : String := "measure"
def value : String := "value"

/-- The display name of a field, which is the field itself if it has none. -/
def displayName (name : String) : String :=
  match name with
  | "region_id" => "ID_Region"
  | "region_name" => "Region"
  | "value" => "Wert"
  | "statistic" => "Statistik"
  | "measure" => "Merkmal"
  | "year" => "Jahr"
  | "date" => "Datum"
  | _ => name

end Field

/-- What stands for a thing with an id and a display name. -/
def Labels.choose (labels : Labels) (id name : String) : String :=
  match labels with
  | .id => id
  | .name => name
  | .both => name ++ " (" ++ id ++ ")"

namespace Presentation

/-- The field that holds times. -/
def timeField (p : Presentation) : String := p.query.timeField.name

def statisticName (p : Presentation) (statistic : String) : String :=
  ((p.catalog.statistic? statistic).map (·.name)).getD statistic

def measureName (p : Presentation) (statistic measure : String) : String :=
  ((p.catalog.measure? statistic measure).map (·.name)).getD measure

def dimensionName (p : Presentation) (key : DimensionKey) : String :=
  ((p.catalog.dimension? key.statistic key.measure key.dimension).map (·.name)).getD key.dimension

def valueName (p : Presentation) (key : DimensionKey) (value : String) : String :=
  ((p.catalog.dimension? key.statistic key.measure key.dimension).map (·.valueName value)).getD value

def label (p : Presentation) (id name : String) : String := p.query.labels.choose id name

def statisticLabel (p : Presentation) (statistic : String) : String :=
  p.label statistic (p.statisticName statistic)

def measureLabel (p : Presentation) (statistic measure : String) : String :=
  p.label measure (p.measureName statistic measure)

def valueLabel (p : Presentation) (key : DimensionKey) (value : String) : String :=
  p.label value (p.valueName key value)

/-- Display names are shown at all. -/
def showsNames (p : Presentation) : Bool := p.query.labels != .id

end Presentation

end RegionalTables
