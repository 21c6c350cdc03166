/-! Finite sets held as strictly ascending lists. Sets with the same members are equal
(`SortedSet.ext_mem`), whatever the order and number of insertions that built them. -/
namespace RegionalTables

structure SortedSet (κ : Type u) [Ord κ] where
  toList : List κ
  ascending : toList.Pairwise fun a b => compare a b = .lt
  deriving DecidableEq

namespace SortedSet

variable {κ : Type u} [Ord κ]

@[ext] theorem ext {s t : SortedSet κ} (h : s.toList = t.toList) : s = t := by
  cases s; cases t; simp_all

def empty : SortedSet κ := ⟨[], .nil⟩

instance : EmptyCollection (SortedSet κ) := ⟨empty⟩
instance : Inhabited (SortedSet κ) := ⟨empty⟩
instance : Membership κ (SortedSet κ) := ⟨fun s a => a ∈ s.toList⟩

def isEmpty (s : SortedSet κ) : Bool := s.toList.isEmpty
def contains [BEq κ] (s : SortedSet κ) (a : κ) : Bool := s.toList.contains a

def insertList (a : κ) : List κ → List κ
  | [] => [a]
  | b :: rest =>
    match compare a b with
    | .lt => a :: b :: rest
    | .eq => b :: rest
    | .gt => b :: insertList a rest

theorem mem_insertList [Std.LawfulEqOrd κ] {a c : κ} {l : List κ} :
    c ∈ insertList a l ↔ c = a ∨ c ∈ l := by
  induction l with
  | nil => simp [insertList]
  | cons b rest ih =>
    unfold insertList
    split
    case h_1 => simp
    case h_2 same =>
      have : a = b := Std.LawfulEqCmp.compare_eq_iff_eq.1 same
      simp [this]
    case h_3 => simp [ih]; grind

theorem ascending_insertList [Std.TransOrd κ] [Std.LawfulEqOrd κ] {a : κ} {l : List κ}
    (h : l.Pairwise fun a b => compare a b = .lt) :
    (insertList a l).Pairwise fun a b => compare a b = .lt := by
  induction l with
  | nil => simp [insertList]
  | cons b rest ih =>
    obtain ⟨first, others⟩ := List.pairwise_cons.1 h
    unfold insertList
    split
    case h_1 before =>
      refine List.pairwise_cons.2 ⟨fun e he => ?_, h⟩
      rcases List.mem_cons.1 he with rfl | he
      · exact before
      · exact Std.TransCmp.lt_trans before (first e he)
    case h_2 => exact h
    case h_3 after =>
      refine List.pairwise_cons.2 ⟨fun e he => ?_, ih others⟩
      rcases mem_insertList.1 he with rfl | he
      · exact Std.OrientedCmp.gt_iff_lt.1 after
      · exact first e he

def insert [Std.TransOrd κ] [Std.LawfulEqOrd κ] (s : SortedSet κ) (a : κ) : SortedSet κ :=
  ⟨insertList a s.toList, ascending_insertList s.ascending⟩

def insertAll [Std.TransOrd κ] [Std.LawfulEqOrd κ] (s : SortedSet κ) (l : List κ) : SortedSet κ :=
  l.foldl insert s

def ofList [Std.TransOrd κ] [Std.LawfulEqOrd κ] (l : List κ) : SortedSet κ := empty.insertAll l

theorem mem_toList {s : SortedSet κ} {a : κ} : a ∈ s.toList ↔ a ∈ s := .rfl

@[simp] theorem not_mem_empty (a : κ) : a ∉ (empty : SortedSet κ) := by
  simp [← mem_toList, empty]

@[simp] theorem mem_insert [Std.TransOrd κ] [Std.LawfulEqOrd κ] {s : SortedSet κ} {a c : κ} :
    c ∈ s.insert a ↔ c = a ∨ c ∈ s := mem_insertList

@[simp] theorem mem_insertAll [Std.TransOrd κ] [Std.LawfulEqOrd κ] {s : SortedSet κ} {l : List κ}
    {c : κ} : c ∈ s.insertAll l ↔ c ∈ s ∨ c ∈ l := by
  induction l generalizing s with
  | nil => simp [insertAll]
  | cons a rest ih =>
    have := @ih (s.insert a)
    simp only [insertAll, List.foldl_cons, List.mem_cons] at this ⊢
    rw [this, mem_insert]; grind

@[simp] theorem mem_ofList [Std.TransOrd κ] [Std.LawfulEqOrd κ] {l : List κ} {c : κ} :
    c ∈ ofList l ↔ c ∈ l := by
  simp [ofList]

/-- Membership decides equality. -/
theorem ext_mem [Std.TransOrd κ] [Std.LawfulEqOrd κ] {s t : SortedSet κ}
    (h : ∀ a, a ∈ s ↔ a ∈ t) : s = t := by
  refine ext (@List.Perm.eq_of_pairwise _ (fun a b => compare a b = .lt) _ _
    (fun a b _ _ one two => ?_) s.ascending t.ascending ?_)
  · have := Std.TransCmp.lt_trans one two
    simp at this
  · refine (List.perm_ext_iff_of_nodup ?_ ?_).2 h
    · exact s.ascending.imp fun h e => by subst e; simp at h
    · exact t.ascending.imp fun h e => by subst e; simp at h

end SortedSet

end RegionalTables
