import Mathlib.Data.List.Forall2
import RegionalTables.Frame.Basic

/-! Rows of a frame whose columns are of one length. Every column then has a cell of its own in
every row, and what is written for a row has one part for each of these cells. -/
namespace RegionalTables

namespace Frame

instance (f : Frame) : Decidable f.Rectangular :=
  inferInstanceAs (Decidable (∀ c ∈ f.all, c.cells.length = f.length))

/-- The list has one part for each column, in column order: what becomes of its cell in row `i`. -/
def RowAs (f : Frame) (i : Nat) (R : Column → Cell → α → Prop) (l : List α) : Prop :=
  List.Forall₂ (fun c a => ∃ x, c.cells[i]? = some x ∧ R c x a) f.all l

/-- One list for each row of the frame, in order. -/
structure RowsAs (f : Frame) (R : Column → Cell → α → Prop) (rows : List (List α)) : Prop where
  length : rows.length = f.length
  row : ∀ i row, rows[i]? = some row → f.RowAs i R row

theorem RowAs.exists_of_mem {f : Frame} {i : Nat} {R : Column → Cell → α → Prop} {l : List α}
    (row : f.RowAs i R l) {c : Column} (own : c ∈ f.all) :
    ∃ a ∈ l, ∃ x, c.cells[i]? = some x ∧ R c x a := by
  rw [RowAs] at row
  generalize f.all = columns at row own
  induction row with
  | nil => contradiction
  | cons first _ ih =>
    rcases List.mem_cons.1 own with rfl | own
    · exact ⟨_, .head _, first⟩
    · obtain ⟨a, member, made⟩ := ih own
      exact ⟨a, .tail _ member, made⟩

/-- What each part shows of its column alone is that of all columns in order. -/
theorem RowAs.map_eq {f : Frame} {i : Nat} {R : Column → Cell → α → Prop} {l : List α}
    (row : f.RowAs i R l) {g : α → β} {h : Column → β} (each : ∀ c x a, R c x a → g a = h c) :
    l.map g = f.all.map h := by
  rw [RowAs] at row
  generalize f.all = columns at row ⊢
  induction row with
  | nil => rfl
  | cons first _ ih =>
    obtain ⟨x, _, made⟩ := first
    rw [List.map_cons, List.map_cons, each _ x _ made, ih]

theorem Rectangular.getElem?_cells {f : Frame} (rect : f.Rectangular) {i : Nat}
    (inside : i < f.length) {c : Column} (own : c ∈ f.all) : c.cells[i]? = some (c.cell i) := by
  have bound : i < c.cells.length := by
    rw [rect c own]
    exact inside
  simp [Column.cell, bound]

/-- What is written cell by cell is made from the cells the columns have. -/
theorem Rectangular.rowsAs_map {f : Frame} (rect : f.Rectangular) {R : Column → Cell → α → Prop}
    {g : Column → Cell → α} (each : ∀ c x, R c x (g c x)) :
    f.RowsAs R ((List.range f.length).map fun i => f.all.map fun c => g c (c.cell i)) where
  length := by simp
  row i row given := by
    obtain ⟨inside, rfl⟩ : i < f.length ∧ (f.all.map fun c => g c (c.cell i)) = row := by
      simpa [List.getElem?_eq_some_iff] using given
    rw [RowAs, List.forall₂_map_right_iff, List.forall₂_same]
    intro c own
    exact ⟨c.cell i, rect.getElem?_cells inside own, each c _⟩

end Frame

namespace Sample

/-- Labels and cells with quotes, delimiters and line ends in them. -/
def notes : Frame where
  index := some ⟨.field "year", "Jahr", [.text "2015", .text "2016"]⟩
  columns := [
    ⟨.field "value", "Wert \"roh\"", [.integer 42, .missing]⟩,
    ⟨.field "note", "Anmerkung", [.text "a,b", .text "\r\n"]⟩]

end Sample

end RegionalTables
