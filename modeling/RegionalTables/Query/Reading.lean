import RegionalTables.Query.Basic
import RegionalTables.Query.Parameter

/-! Reading a query from its raw string. Parameters are checked in declared order after all names
are known, and the first failure is the answer. -/
namespace RegionalTables.Query

def timeRejected (text : String) : Rejection := .invalidValue "time" text

/-- A year below 65536 in ASCII digits, or no bound for no text. -/
def bound (text : String) (digits : List Char) : Except Rejection (Option UInt16) :=
  if digits.isEmpty then .ok none
  else if !digits.all Binary64.isDigit then .error (timeRejected text)
  else
    let year := Nat.ofDigitChars 10 digits 0
    if year < 65536 then .ok (some year.toUInt16) else .error (timeRejected text)

def readTime (text : String) : Except Rejection TimeChoice :=
  if text = "all" then .ok .all
  else if text = "last" then .ok .last
  else match Text.cut? ':' text.toList with
    | some (low, high) => do return .range (← bound text low) (← bound text high)
    | none => do
      match ← bound text text.toList with
      | some year => return .year year
      | none => .error (timeRejected text)

def readRegion : Option (List String) → RegionChoice
  | none => .all
  | some ids => .ids (.ofList ids)

def readLevelNumber (text : String) : Except Rejection UInt8 :=
  let digits := text.toList
  let level := Nat.ofDigitChars 10 digits 0
  if !digits.isEmpty && digits.all Binary64.isDigit && level < 256 then .ok level.toUInt8
  else .error (.invalidValue "level" text)

def readLevel : Option (List String) → Except Rejection LevelChoice
  | none => .ok (.levels (.ofList [1]))
  | some items =>
    if items.contains "all" then
      if 1 < items.length then .error (.mixedAll "level") else .ok .all
    else do return .levels (.ofList (← items.mapM readLevelNumber))

def readTimeField : Option String → TimeField
  | some "date" => .date
  | _ => .year

def readLabels : Option String → Labels
  | some "name" => .name
  | some "both" => .both
  | _ => .id

def readLayout : Option String → Layout
  | some "region" => .region
  | some "time" => .time
  | _ => .long

def readFormat : Option String → Format
  | some "tsv" => .tsv
  | some "json" => .json
  | _ => .csv

def readDelimiter : Option String → Delimiter
  | some ";" => .semicolon
  | _ => .comma

def readSort : Option String → SortKey
  | some "region" => .region
  | some "measure" => .measure
  | some "value" => .value
  | _ => .time

def readData : Option (List String) → Except Rejection Selection
  | some entries => Selection.ofEntries entries
  | none => .error .missingData

/-- The cleaned items of a parameter; an undeclared one has none. -/
def items (given : Arguments) (name : String) : Except Rejection (Option (List String)) :=
  match Parameter.named? name with
  | some p => p.clean given
  | none => .ok none

/-- The first item of a parameter. -/
def item (given : Arguments) (name : String) : Except Rejection (Option String) :=
  (items given name).map fun items => items.bind List.head?

def ofArguments (source : String) (given : Arguments) : Except Rejection Query := do
  Parameter.checkKnown given
  let region := readRegion (← items given "region")
  let level ← readLevel (← items given "level")
  let parent ← item given "parent"
  let time ← match ← item given "time" with
    | none => pure .last
    | some text => readTime text
  let timeField := readTimeField (← item given "dformat")
  let labels := readLabels (← item given "labels")
  let layout := readLayout (← item given "layout")
  let format := readFormat (← item given "format")
  let delimiter := readDelimiter (← item given "delimiter")
  let sort := readSort (← item given "sort")
  let data ← readData (← items given "data")
  return {
    data, delimiter, timeField, format, labels, layout, level, parent, region, sort, time, source }

/-- Reads a query without looking at any catalog. -/
def read (raw : String) : Except Rejection Query :=
  ofArguments (String.ofList (Arguments.trimmed raw)) (.ofQueryString raw)

end RegionalTables.Query
