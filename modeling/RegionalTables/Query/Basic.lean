import RegionalTables.Query.Selection

/-! Queries: the data asked for, the facts considered, and the form of the answer. -/
namespace RegionalTables

inductive RegionChoice where
  | all
  | ids (ids : SortedSet String)
  deriving DecidableEq

/-- Levels narrow the regions only where all regions are asked for. -/
inductive LevelChoice where
  | all
  | levels (levels : SortedSet UInt8)
  deriving DecidableEq

inductive TimeChoice where
  | all
  /-- The latest time there is, for each measure. -/
  | last
  | year (year : UInt16)
  /-- Both bounds included; a missing bound is open. -/
  | range (low high : Option UInt16)
  deriving DecidableEq

/-- The field of a fact that holds its time. -/
inductive TimeField where
  | year
  | date
  deriving DecidableEq

inductive Layout where
  | long
  | region
  | time
  deriving DecidableEq

inductive Format where
  | csv
  | tsv
  | json
  deriving DecidableEq

inductive Labels where
  | id
  | name
  | both
  deriving DecidableEq

inductive SortKey where
  | time
  | region
  | measure
  | value
  deriving DecidableEq

inductive Delimiter where
  | comma
  | semicolon
  deriving DecidableEq

structure Query where
  data : Selection
  delimiter : Delimiter
  timeField : TimeField
  format : Format
  labels : Labels
  layout : Layout
  level : LevelChoice
  parent : Option String
  region : RegionChoice
  sort : SortKey
  time : TimeChoice
  /-- The text the query was read from, which has no part in its identity. -/
  source : String
  deriving DecidableEq

def TimeField.name : TimeField → String
  | .year => "year"
  | .date => "date"

def Layout.name : Layout → String
  | .long => "long"
  | .region => "region"
  | .time => "time"

def Format.name : Format → String
  | .csv => "csv"
  | .tsv => "tsv"
  | .json => "json"

def Format.mimetype : Format → String
  | .json => "application/json"
  | .csv | .tsv => "text/plain"

def Labels.text : Labels → String
  | .id => "id"
  | .name => "name"
  | .both => "both"

def SortKey.name : SortKey → String
  | .time => "time"
  | .region => "region"
  | .measure => "measure"
  | .value => "value"

def Delimiter.char : Delimiter → Char
  | .comma => ','
  | .semicolon => ';'

namespace TimeChoice

def bound (b : Option UInt16) : String := (b.map fun y => toString y.toNat).getD ""

def text : TimeChoice → String
  | .all => "all"
  | .last => "last"
  | .year y => toString y.toNat
  | .range low high => bound low ++ ":" ++ bound high

end TimeChoice

end RegionalTables
