import RegionalTables.Cell

/-! Frames: tables held column by column, with or without a column of row labels. -/
namespace RegionalTables

/-- The values of one dimension of one measure. -/
structure DimensionKey where
  statistic : String
  measure : String
  dimension : String
  deriving DecidableEq

/-- A measure at given dimension values, at one time or in one region: the suffix. -/
structure PivotKey where
  statistic : String
  measure : String
  dimensions : List (String × String)
  suffix : String
  deriving DecidableEq

/-- What a column holds, whatever its header says. -/
inductive ColumnKey where
  | field (name : String)
  | dimension (key : DimensionKey)
  | pivot (key : PivotKey)
  deriving DecidableEq

/-- The statistic a column belongs to; fields belong to none. -/
def ColumnKey.statistic? : ColumnKey → Option String
  | .field _ => none
  | .dimension key => some key.statistic
  | .pivot key => some key.statistic

structure Column where
  key : ColumnKey
  header : String
  cells : List Cell
  deriving DecidableEq

namespace Column

def ofField (name : String) (cells : List Cell) : Column := ⟨.field name, "", cells⟩

def isField (c : Column) (name : String) : Bool := c.key == .field name

/-- The cell in a row; beyond the end of the column it is missing. -/
def cell (c : Column) (row : Nat) : Cell := c.cells[row]?.getD .missing

def mapCells (f : Cell → Cell) (c : Column) : Column := { c with cells := c.cells.map f }

/-- Row `i` becomes what row `order[i]` was. -/
def permute (order : List Nat) (c : Column) : Column := { c with cells := order.map c.cell }

end Column

structure Frame where
  index : Option Column
  columns : List Column
  deriving DecidableEq

namespace Frame

/-- The index, if there is one, and the columns. -/
def all (f : Frame) : List Column := f.index.toList ++ f.columns

/-- The number of rows, which is that of the first column. -/
def length (f : Frame) : Nat := ((f.all.head?).map (·.cells.length)).getD 0

def isEmpty (f : Frame) : Bool := f.length == 0

def headers (f : Frame) : List String := f.all.map (·.header)

/-- The place of a field among the columns. -/
def position? (f : Frame) (name : String) : Option Nat := f.columns.findIdx? (·.isField name)

/-- The column at this place. -/
def column? (f : Frame) (name : String) : Option Column := (f.position? name).bind (f.columns[·]?)

theorem column?_eq_find? (f : Frame) (name : String) :
    f.column? name = f.columns.find? (·.isField name) :=
  List.find?_eq_bind_findIdx?_getElem?.symm

def mapColumns (g : Column → Column) (f : Frame) : Frame := ⟨f.index.map g, f.columns.map g⟩

def mapCells (g : Cell → Cell) (f : Frame) : Frame := f.mapColumns (·.mapCells g)

def permute (order : List Nat) (f : Frame) : Frame := f.mapColumns (·.permute order)

def row (f : Frame) (i : Nat) : List Cell := f.all.map (·.cell i)

def rows (f : Frame) : List (List Cell) := (List.range f.length).map f.row

/-- All columns are of one length. -/
def Rectangular (f : Frame) : Prop := ∀ c ∈ f.all, c.cells.length = f.length

end Frame

end RegionalTables
