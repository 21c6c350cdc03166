import RegionalTables.Cell

/-! What the place in a sort tells of a cell. Numbers that are equal at double precision share a
place; any other cell is alone on its own. -/
namespace RegionalTables.Cell

instance : Std.LawfulEqOrd SortKey where
  eq_of_compare {a b} same := by
    have parts : compareLex (compareOn SortKey.kind)
      (compareLex (compareOn SortKey.number) (compareOn SortKey.text)) a b = .eq := same
    simp only [compareLex_eq_eq, compareOn, Std.LawfulEqCmp.compare_eq_iff_eq] at parts
    obtain ⟨kind, number, text⟩ := parts
    cases a
    cases b
    simp_all

/-- The cell holds a number. -/
def IsNumber : Cell → Prop
  | integer _ | float _ => True
  | missing | text _ => False

theorem eq_of_sortKey_eq {c d : Cell} (label : ¬ c.IsNumber) (same : c.sortKey = d.sortKey) :
    c = d := by
  cases c with
  | integer n | float x => exact absurd trivial label
  | missing | text s => cases d <;> simp_all [sortKey]

theorem compare_eq_iff {c d : Cell} : compare c d = .eq ↔ c.sortKey = d.sortKey := by
  change compare c.sortKey d.sortKey = .eq ↔ _
  exact Std.LawfulEqCmp.compare_eq_iff_eq

/-- Numbers alone are coerced. -/
theorem coerce_of_not_isNumber {c : Cell} (label : ¬ c.IsNumber) : c.coerce = c := by
  cases c with
  | integer n | float x => exact absurd trivial label
  | missing | text s => rfl

end RegionalTables.Cell
