import RegionalTables.Cell
import RegionalTables.Proofs.Binary64
import RegionalTables.Proofs.Json.Reading

/-! Cells in documents. A finite cell is read from its written form with its kind kept; a number that
is not finite is written as nothing, so a missing cell is read in its place. -/
namespace RegionalTables.Cell

open Json Json.Tree

def Finite : Cell → Prop
  | float x => x.isFinite = true
  | _ => True

theorem integer?_toInt (n : Int64) : integer? n.toInt = some n := by
  have low := n.le_toInt
  have high := n.toInt_lt
  rw [integer?, if_pos ⟨low, high⟩, Int64.ofInt_toInt]

theorem writable_value {c : Cell} (finite : c.Finite) : c.value.Writable := by
  cases c with
  | missing | text s => exact trivial
  | integer n =>
    have low := n.le_toInt
    have high := n.toInt_lt
    constructor <;> omega
  | float x => exact finite

/-- A cell is read from its written form. -/
theorem ofTree?_value (c : Cell) : ofTree? (Tree.ofValue c.value) = some c := by
  cases c with
  | missing | text s | float x => rfl
  | integer n =>
    change some (ofNumber (.integer n.toInt)) = _
    rw [ofNumber, integer?_toInt]

theorem finite_ofNumber {n : Number} (valid : n.Valid) : (ofNumber n).Finite := by
  cases n with
  | float x => exact valid
  | integer i =>
    obtain ⟨low, high⟩ := valid
    rw [ofNumber]
    split
    · exact trivial
    · exact Binary64.isFinite_ofInt (by omega)

theorem finite_ofValue {v : Value} (canonical : v.Canonical) : (Cell.ofValue v).Finite := by
  cases v with
  | number n => exact finite_ofNumber canonical
  | _ => exact trivial

/-- The cell that the written form stands for. -/
def written : Cell → Cell
  | float x => if x.isFinite then float x else missing
  | c => c

theorem chars_written (c : Cell) : c.written.value.chars = c.value.chars := by
  cases c with
  | missing | integer n | text s => rfl
  | float x =>
    cases finite : x.isFinite with
    | true => simp [written, finite]
    | false => simp [written, finite, value, Value.chars, Number.chars]

theorem finite_written (c : Cell) : c.written.Finite := by
  cases c with
  | missing | integer n | text s => exact trivial
  | float x =>
    cases finite : x.isFinite with
    | true => rwa [written, if_pos finite]
    | false => simp [written, finite, Finite]

theorem written_eq_iff {c : Cell} : c.written = c ↔ c.Finite := by
  cases c with
  | missing | integer n | text s => simp [written, Finite]
  | float x => simp [written, Finite]

end RegionalTables.Cell
