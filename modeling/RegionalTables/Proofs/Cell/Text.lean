import RegionalTables.Cell
import RegionalTables.Proofs.Decimal.Reading

/-! Cells as text. Each kind of cell has a text of its own: an integer its numeral, a double a number
that is read back as this double, and only a missing cell has none. -/
namespace RegionalTables

namespace Json

theorem ofList_integerChars (n : Int) : String.ofList (integerChars n) = toString n := by
  rw [integerChars, Int.toString_eq_repr, Int.repr_eq_if]
  by_cases negative : n < 0
  · have digits : (-n).toNat = n.natAbs := by omega
    rw [if_pos negative, if_neg (by omega), digits, Nat.repr_eq_ofList_toDigits,
      ← List.singleton_append, String.ofList_append]
  · have digits : n.toNat = n.natAbs := by omega
    rw [if_neg negative, if_pos (by omega), digits, Nat.repr_eq_ofList_toDigits]

end Json

namespace Cell

/-- The text says what the cell holds. There is one NaN for all of them; every other double can be
read from the text. -/
def Shows : Cell → String → Prop
  | missing, shown => shown = ""
  | integer n, shown => shown = toString n.toInt
  | float x, shown => if x.isNaN then shown = "NaN" else Binary64.ofText? shown = some x
  | text s, shown => shown = s

theorem shows_text (c : Cell) : c.Shows (c.text?.getD "") := by
  cases c with
  | missing | text s => rfl
  | integer n => exact Json.ofList_integerChars n.toInt
  | float x =>
    cases number : x.isNaN with
    | true => simp [Shows, text?, NumberStyle.text, number]
    | false => simpa [Shows, text?, number] using Binary64.ofText?_text .cell number

end Cell

end RegionalTables
