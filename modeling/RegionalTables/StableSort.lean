/-! Stable sorting by a key: elements with equal keys keep the order they had. -/
namespace RegionalTables

/-- Sorts by ascending `key`, which is computed once for each element. -/
def sortOn [Ord κ] (key : α → κ) (l : List α) : List α :=
  ((l.map fun a => (key a, a)).mergeSort fun a b => (compare a.1 b.1).isLE).map (·.2)

theorem sortOn_perm [Ord κ] (key : α → κ) (l : List α) : (sortOn key l).Perm l := by
  have := (List.mergeSort_perm (l.map fun a => (key a, a)) fun a b => (compare a.1 b.1).isLE).map (·.2)
  simpa [sortOn, Function.comp_def] using this

@[simp] theorem mem_sortOn [Ord κ] {key : α → κ} {l : List α} {a : α} : a ∈ sortOn key l ↔ a ∈ l :=
  (sortOn_perm key l).mem_iff

end RegionalTables
