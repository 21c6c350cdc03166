import RegionalTables.StableSort

/-! What a sort by key yields. The result is in ascending order, elements of equal keys stay as they
were, it depends on the elements alone where equal keys mean equal elements, and sorting places is sorting
what stands at them. -/
namespace RegionalTables

variable {α : Type u} {β : Type v} {κ : Type w} [Ord κ]

theorem sortOn_congr {key key' : α → κ} {l : List α} (same : ∀ a ∈ l, key a = key' a) :
    sortOn key l = sortOn key' l := by
  have keyed : (l.map fun a => (key a, a)) = l.map fun a => (key' a, a) :=
    List.map_congr_left fun a member => by rw [same a member]
  rw [sortOn, keyed, sortOn]

theorem map_sortOn (key : β → κ) (f : α → β) (l : List α) :
    (sortOn (fun a => key (f a)) l).map f = sortOn key (l.map f) := by
  have step := List.map_mergeSort (f := fun p : κ × α => (p.1, f p.2))
    (r := fun a b => (compare a.1 b.1).isLE) (s := fun a b => (compare a.1 b.1).isLE)
    (l := l.map fun a => (key (f a), a)) fun _ _ _ _ => rfl
  have keyed : ((l.map fun a => (key (f a), a)).map fun p : κ × α => (p.1, f p.2)) =
      (l.map f).map fun b => (key b, b) := by
    simp [List.map_map, Function.comp_def]
  rw [sortOn, sortOn, ← keyed, ← step, List.map_map, List.map_map]
  rfl

/-- Elements that stand in order already stay where they are. -/
theorem sortOn_of_pairwise {key : α → κ} {l : List α}
    (order : l.Pairwise fun a b => (compare (key a) (key b)).isLE = true) : sortOn key l = l := by
  rw [sortOn, List.mergeSort_of_pairwise (List.pairwise_map.2 order), List.map_map]
  exact List.map_id l

variable [Std.TransOrd κ]

theorem isLE_or_isLE (k k' : κ) : ((compare k k').isLE || (compare k' k).isLE) = true := by
  have swap : compare k' k = (compare k k').swap := Std.OrientedCmp.eq_swap
  rw [swap]
  cases compare k k' <;> rfl

theorem pairwise_sortOn (key : α → κ) (l : List α) :
    (sortOn key l).Pairwise fun a b => (compare (key a) (key b)).isLE = true := by
  have sorted : ((l.map fun a => (key a, a)).mergeSort fun a b => (compare a.1 b.1).isLE).Pairwise
      fun a b => (compare a.1 b.1).isLE = true :=
    List.pairwise_mergeSort (fun _ _ _ => Std.TransCmp.isLE_trans) (fun _ _ => isLE_or_isLE _ _) _
  rw [sortOn, List.pairwise_map]
  refine sorted.imp_of_mem ?_
  intro p r mp mr le
  obtain ⟨a, _, rfl⟩ := List.mem_map.1 (List.mem_mergeSort.1 mp)
  obtain ⟨b, _, rfl⟩ := List.mem_map.1 (List.mem_mergeSort.1 mr)
  exact le

/-- Elements that stand in order keep their places relative to one another. -/
theorem sublist_sortOn {key : α → κ} {l part : List α} (own : part.Sublist l)
    (order : part.Pairwise fun a b => (compare (key a) (key b)).isLE = true) :
    part.Sublist (sortOn key l) := by
  have kept : (part.map fun a => (key a, a)).Sublist
      ((l.map fun a => (key a, a)).mergeSort fun a b => (compare a.1 b.1).isLE) :=
    List.sublist_mergeSort (fun _ _ _ => Std.TransCmp.isLE_trans) (fun _ _ => isLE_or_isLE _ _)
      (List.pairwise_map.2 order) (own.map _)
  simpa [sortOn, List.map_map, Function.comp_def] using kept.map (·.2)

variable [Std.LawfulEqOrd κ]

theorem filter_sortOn [DecidableEq κ] (key : α → κ) (l : List α) (k : κ) :
    (sortOn key l).filter (fun a => key a = k) = l.filter fun a => key a = k := by
  have alike : ∀ a ∈ l.filter fun a => key a = k, key a = k := fun a member => by
    simpa using (List.mem_filter.1 member).2
  have order : (l.filter fun a => key a = k).Pairwise
      fun a b => (compare (key a) (key b)).isLE = true :=
    List.pairwise_of_forall_mem_list fun a ma b mb => by
      rw [alike a ma, alike b mb]
      simp
  have part := (sublist_sortOn List.filter_sublist order).filter fun a => key a = k
  simp only [List.filter_filter, Bool.and_self] at part
  exact (part.eq_of_length ((sortOn_perm key l).filter _).length_eq.symm).symm

/-- Of elements with equal keys the one that stood before the other still does. -/
theorem pairwise_sortOn_of_pairwise {R : α → α → Prop} (key : α → κ) {l : List α}
    (before : l.Pairwise R) : (sortOn key l).Pairwise fun a b =>
      compare (key a) (key b) = .lt ∨ compare (key a) (key b) = .eq ∧ R a b := by
  classical
  rw [List.pairwise_iff_forall_sublist]
  intro a b pair
  have order := List.pairwise_iff_forall_sublist.1 (pairwise_sortOn key l) pair
  obtain less | equal := Ordering.isLE_iff_eq_lt_or_eq_eq.1 order
  · exact .inl less
  · have same : key a = key b := Std.LawfulEqCmp.compare_eq_iff_eq.1 equal
    have alike := pair.filter fun c => key c = key b
    rw [filter_sortOn] at alike
    have stood : [a, b].Sublist l := by
      simpa [same] using alike.trans List.filter_sublist
    exact .inr ⟨equal, List.pairwise_iff_forall_sublist.1 before stood⟩

/-- Where equal keys mean equal values of `f`, the values in sorted order do not depend on the order
before. -/
theorem map_sortOn_eq_of_perm {key : α → κ} {f : α → β} {l l' : List α} (same : l.Perm l')
    (told : ∀ a ∈ l, ∀ b ∈ l', key a = key b → f a = f b) :
    (sortOn key l).map f = (sortOn key l').map f := by
  have pairs : (sortOn key l).map (fun a => (key a, f a)) =
      (sortOn key l').map fun a => (key a, f a) := by
    refine @List.Perm.eq_of_pairwise _ (fun a b => (compare a.1 b.1).isLE = true) _ _ ?_ ?_ ?_ ?_
    · intro p r mp mr le ge
      obtain ⟨a, ma, rfl⟩ := List.mem_map.1 mp
      obtain ⟨b, mb, rfl⟩ := List.mem_map.1 mr
      have equal : key a = key b :=
        Std.LawfulEqCmp.compare_eq_iff_eq.1 (Std.OrientedCmp.isLE_antisymm le ge)
      rw [equal, told a (mem_sortOn.1 ma) b (mem_sortOn.1 mb) equal]
    · exact List.pairwise_map.2 (pairwise_sortOn key l)
    · exact List.pairwise_map.2 (pairwise_sortOn key l')
    · exact (((sortOn_perm key l).trans same).trans (sortOn_perm key l').symm).map _
  simpa [List.map_map, Function.comp_def] using congrArg (List.map Prod.snd) pairs

/-- Sorting brings elements of different keys into the one order they have. -/
theorem sortOn_eq_of_perm {key : α → κ} {l l' : List α} (same : l'.Perm l)
    (order : l.Pairwise fun a b => (compare (key a) (key b)).isLE = true)
    (apart : ∀ a b, key a = key b → a = b) : sortOn key l' = l := by
  have sorted := map_sortOn_eq_of_perm (f := id) same fun a _ b _ => apart a b
  rwa [List.map_id, List.map_id, sortOn_of_pairwise order] at sorted

end RegionalTables
