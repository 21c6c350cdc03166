import RegionalTables.Query.Arguments
import RegionalTables.Query.Entry
import RegionalTables.Query.Pattern

/-! The declared parameters of a query and the cleaning of their arguments. -/
namespace RegionalTables

/-- What separates the items of one value. -/
inductive ListStyle where
  | single
  | comma
  | nested
  deriving DecidableEq

structure Parameter where
  name : String
  /-- A first value that stands for leaving the parameter out. -/
  standard : Option String := none
  choices : List String := []
  patterns : List Pattern := []
  list : ListStyle := .single
  repeatable : Bool := false

namespace Parameter

def year : Pattern := [.digits 4]

/-- All parameters in the order in which queries are checked. -/
def all : List Parameter := [
  { name := "region", standard := some "all", choices := ["DG"], patterns := [[.someDigits]],
    list := .comma },
  { name := "level", standard := some "1", choices := ["0", "1", "2", "3", "4", "all"],
    list := .comma },
  { name := "parent", patterns := [[.someDigits]] },
  { name := "time", standard := some "last", choices := ["all", "last"],
    patterns := [year, year ++ [.char ':'] ++ year, [.char ':'] ++ year, year ++ [.char ':']] },
  { name := "dformat", standard := some "year", choices := ["year", "date"] },
  { name := "labels", standard := some "id", choices := ["id", "name", "both"] },
  { name := "layout", standard := some "long", choices := ["long", "region", "time"] },
  { name := "format", standard := some "csv", choices := ["csv", "tsv", "json"] },
  { name := "delimiter", standard := some ",", choices := [",", ";"] },
  { name := "sort", standard := some "time", choices := ["time", "region", "value", "measure"] },
  { name := "data", list := .nested, repeatable := true }]

def named? (name : String) : Option Parameter := all.find? (·.name == name)

/-- A parameter without choices and patterns takes any value. -/
def accepts (p : Parameter) (value : String) : Bool :=
  p.choices.isEmpty && p.patterns.isEmpty || p.choices.contains value ||
    p.patterns.any (·.accepts value.toList)

def items (p : Parameter) (value : String) : Except Rejection (List String) :=
  match p.list with
  | .single => if value.toList.contains ',' then .error (.notAList p.name) else .ok [value]
  | .comma => .ok ((Text.split ',' value.toList).map String.ofList)
  | .nested => .ok (Entry.split value)

def check (p : Parameter) (value : String) : Except Rejection Unit :=
  if p.accepts value then .ok () else .error (.invalidValue p.name value)

def checkedItems (p : Parameter) (value : String) : Except Rejection (List String) := do
  let items ← p.items value
  items.forM p.check
  return items

/-- The items given for a parameter in order, or `none` where its standard applies: it is absent,
or its first value says so. -/
def clean (p : Parameter) (given : Arguments) : Except Rejection (Option (List String)) :=
  match given.values p.name with
  | [] => .ok none
  | first :: others =>
    if !p.repeatable && !others.isEmpty then .error (.repeated p.name)
    else if p.standard = some first then .ok none
    else do
      let items ← (first :: others).mapM p.checkedItems
      return some items.flatten

/-- Refuses every name that is not declared. -/
def checkKnown (given : Arguments) : Except Rejection Unit :=
  match given.keys.filter fun name => (named? name).isNone with
  | [] => .ok ()
  | unknown => .error (.unknownParameters unknown)

end Parameter

end RegionalTables
