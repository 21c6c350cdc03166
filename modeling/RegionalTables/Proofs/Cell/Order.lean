import RegionalTables.Proofs.Binary64.Whole
import RegionalTables.Proofs.Cell

/-! The order of cells. Every two cells are comparable, and the order is that of doubles, of texts and
of kinds. Integers are compared as doubles, so beyond 53 bits they stand in the order of what they are
rounded to: never the wrong way round, but not always told apart. -/
namespace RegionalTables.Cell

/-- The double that a number is compared as. -/
def double? : Cell → Option Binary64
  | integer n => some (.ofInt n.toInt)
  | float x => some x
  | missing | text _ => none

/-- A comparison that puts all cells in one line, where some share a place: numbers first, then texts,
and at the end what is missing. -/
structure LinesUp (cmp : Cell → Cell → Ordering) : Prop where
  swap : ∀ a b, cmp b a = (cmp a b).swap
  trans : ∀ a b c, (cmp a b).isLE = true → (cmp b c).isLE = true → (cmp a c).isLE = true
  numbers : ∀ a b x y, a.double? = some x → b.double? = some y → cmp a b = x.totalCompare y
  numberText : ∀ a x s, a.double? = some x → cmp a (text s) = .lt
  numberMissing : ∀ a x, a.double? = some x → cmp a missing = .lt
  texts : ∀ s t, cmp (text s) (text t) = compare s t
  textMissing : ∀ s, cmp (text s) missing = .lt
  missings : cmp missing missing = .eq

theorem sortKey_of_double? {a : Cell} {x : Binary64} (number : a.double? = some x) :
    a.sortKey = ⟨0, x.orderKey, ""⟩ := by
  cases a with
  | missing | text s => contradiction
  | integer n | float y =>
    obtain rfl := Option.some.inj number
    rfl

theorem compare_sortKey (a b : SortKey) : compare a b =
    (compare a.kind b.kind).then ((compare a.number b.number).then (compare a.text b.text)) :=
  rfl

theorem compare_eq (a b : Cell) : compare a b = compare a.sortKey b.sortKey := rfl

theorem linesUp_compare : LinesUp compare where
  swap _ _ := Std.OrientedCmp.eq_swap
  trans _ _ _ := Std.TransCmp.isLE_trans
  numbers a b x y number number' := by
    rw [compare_eq, sortKey_of_double? number, sortKey_of_double? number', compare_sortKey]
    simp [Binary64.totalCompare]
  numberText a x s number := by
    rw [compare_eq, sortKey_of_double? number]
    rfl
  numberMissing a x number := by
    rw [compare_eq, sortKey_of_double? number]
    rfl
  texts s t := by
    rw [compare_eq, compare_sortKey]
    simp [sortKey]
  textMissing _ := rfl
  missings := rfl

/-- Lists of cells are compared by the places of the cells. -/
theorem compare_map_sortKey (l l' : List Cell) :
    compare (l.map sortKey) (l'.map sortKey) = compare l l' := by
  induction l generalizing l' with
  | nil => cases l' <;> rfl
  | cons a l ih =>
    cases l' with
    | nil => rfl
    | cons b l' =>
      rw [List.map_cons, List.map_cons, List.compare_cons_cons, List.compare_cons_cons, ih,
        compare_eq]

/-- What an integer is at double precision. -/
def rounded (n : Int64) : Int := (Binary64.ofInt n.toInt).toInt

theorem natAbs_toInt_le (n : Int64) : n.toInt.natAbs ≤ 2 ^ 64 := by
  have low := n.le_toInt
  have high := n.toInt_lt
  omega

theorem rounded_mono {a b : Int64} (le : a.toInt ≤ b.toInt) : rounded a ≤ rounded b :=
  Binary64.toInt_ofInt_mono (natAbs_toInt_le a) (natAbs_toInt_le b) le

theorem rounded_eq_iff (n : Int64) :
    rounded n = n.toInt ↔ Binary64.spacing n.toInt.natAbs ∣ n.toInt.natAbs :=
  Binary64.toInt_ofInt_eq_iff (natAbs_toInt_le n)

theorem rounded_near (n : Int64) :
    2 * (rounded n - n.toInt).natAbs ≤ Binary64.spacing n.toInt.natAbs :=
  Binary64.toInt_ofInt_near (natAbs_toInt_le n)

theorem compare_int_congr {x y x' y' : Int} (le : x ≤ y ↔ x' ≤ y') (ge : y ≤ x ↔ y' ≤ x') :
    compare x y = compare x' y' := by
  obtain below | rfl | above := Int.lt_trichotomy x y
  · rw [Int.compare_eq_lt.2 below, Int.compare_eq_lt.2 (by omega)]
  · rw [Int.compare_eq_eq.2 rfl, Int.compare_eq_eq.2 (by omega)]
  · rw [Int.compare_eq_gt.2 above, Int.compare_eq_gt.2 (by omega)]

/-- Integers stand in the order of what they are rounded to. -/
theorem compare_integer (a b : Int64) :
    compare (integer a) (integer b) = compare (rounded a) (rounded b) := by
  rw [linesUp_compare.numbers (integer a) (integer b) _ _ rfl rfl]
  exact compare_int_congr
    (Binary64.orderKey_ofInt_le_iff (natAbs_toInt_le a) (natAbs_toInt_le b))
    (Binary64.orderKey_ofInt_le_iff (natAbs_toInt_le b) (natAbs_toInt_le a))

/-- Two integers are compared as what they are if and only if rounding tells them apart. -/
theorem compare_integer_eq_iff (a b : Int64) :
    compare (integer a) (integer b) = compare a.toInt b.toInt ↔ (rounded a = rounded b → a = b) := by
  rw [compare_integer]
  constructor
  · intro same alike
    rw [alike, Int.compare_eq_eq.2 rfl] at same
    exact Int64.toInt_inj.1 (Int.compare_eq_eq.1 same.symm)
  · intro told
    have forward := rounded_mono (a := a) (b := b)
    have backward := rounded_mono (a := b) (b := a)
    have apart : rounded a = rounded b → a.toInt = b.toInt := fun alike => by rw [told alike]
    apply compare_int_congr <;> omega

end RegionalTables.Cell
