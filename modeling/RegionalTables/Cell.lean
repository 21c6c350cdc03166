import RegionalTables.Json.Text

/-! Table cells: what a measurement or a label is once it stands in a table. -/
namespace RegionalTables

inductive Cell where
  | missing
  | integer (n : Int64)
  | float (x : Binary64)
  | text (s : String)
  deriving DecidableEq

namespace Cell

open Json

instance : Inhabited Cell := ⟨missing⟩

def isMissing : Cell → Bool
  | missing => true
  | _ => false

def integer? (n : Int) : Option Int64 :=
  if -0x8000000000000000 ≤ n ∧ n < 0x8000000000000000 then some (Int64.ofInt n) else none

/-- An integer where 64 bits with sign hold it, otherwise the nearest double. -/
def ofNumber : Number → Cell
  | .integer n =>
    match integer? n with
    | some i => integer i
    | none => float (.ofInt n)
  | .float x => float x

/-- Truth values and compound values are carried as their JSON text. -/
def ofValue : Value → Cell
  | .null => missing
  | .number n => ofNumber n
  | .string s => text s
  | v => text v.text

/-- An integral double becomes the integer it stands for. -/
def coerce : Cell → Cell
  | float x =>
    if x.isIntegral then
      match integer? x.toInt with
      | some i => integer i
      | none => float x
    else float x
  | c => c

/-- The text of a cell that is not missing. -/
def text? : Cell → Option String
  | missing => none
  | integer n => some (String.ofList (integerChars n.toInt))
  | float x => some (NumberStyle.cell.text x)
  | text s => some s

/-- What decides a cell's place in a sort. -/
structure SortKey where
  kind : Nat
  number : Int
  text : String
  deriving DecidableEq

instance : Ord SortKey where
  compare := compareLex (compareOn SortKey.kind)
    (compareLex (compareOn SortKey.number) (compareOn SortKey.text))

instance : Std.TransOrd SortKey :=
  inferInstanceAs (Std.TransCmp (compareLex (compareOn SortKey.kind)
    (compareLex (compareOn SortKey.number) (compareOn SortKey.text))))

/-- Numbers by value, integers at double precision; then texts; then what is missing. -/
def sortKey : Cell → SortKey
  | integer n => ⟨0, (Binary64.ofInt n.toInt).orderKey, ""⟩
  | float x => ⟨0, x.orderKey, ""⟩
  | text s => ⟨1, 0, s⟩
  | missing => ⟨2, 0, ""⟩

instance : Ord Cell := ⟨compareOn sortKey⟩

instance : Std.TransOrd Cell := inferInstanceAs (Std.TransCmp (compareOn sortKey))

def value : Cell → Value
  | missing => .null
  | integer n => .integer n.toInt
  | float x => .number (.float x)
  | text s => .string s

/-- Reads a cell in its written form. Truth values and compound values are no cells. -/
def ofTree? : Tree → Option Cell
  | .null => some missing
  | .number n => n.map ofNumber
  | .string s => s.map text
  | _ => none

end Cell

end RegionalTables
