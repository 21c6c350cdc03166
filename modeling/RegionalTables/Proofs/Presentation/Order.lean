import RegionalTables.Proofs.Presentation.Pivot

/-! Finished tables of the same observations in another order. In the long layout the sort takes every
column into account, so only values that are sorted alike could show the order; in the wide ones only
observations of one place could. -/
namespace RegionalTables

/-- The rows are told apart as far as the layout needs it: values by their place in a sort, or
observations by what they are of. -/
def BaseTable.Tells (t : BaseTable) (layout : Layout) : Prop :=
  match layout with
  | .long => ∀ o ∈ t.observations, ∀ o' ∈ t.observations,
      compare o.value.coerce o'.value.coerce = .eq → o.value.coerce = o'.value.coerce
  | .region | .time => t.observations.Pairwise fun o o' => o.place ≠ o'.place

theorem BaseTable.valueAt_eq_of_perm {t t' : BaseTable}
    (apart : t.observations.Pairwise fun o o' => o.place ≠ o'.place)
    (same : t.observations.Perm t'.observations) (place : Place) :
    t.valueAt place = t'.valueAt place := by
  have once : t.observations.Pairwise fun o o' => ¬ ((o.place == place) = true ∧
      (o'.place == place) = true) := by
    refine apart.imp ?_
    rintro o o' unlike ⟨here, here'⟩
    exact unlike ((beq_iff_eq.1 here).trans (beq_iff_eq.1 here').symm)
  rw [valueAt, valueAt, find?_eq_of_perm once same]

namespace Presentation

variable {p : Presentation} {t t' : BaseTable}

/-- Values alone are numbers. -/
theorem not_isNumber_longCell (p : Presentation) {key : ColumnKey}
    (label : key ≠ .field Field.value) (o : Observation) : ¬ (p.longCell key o).IsNumber := by
  cases key with
  | field name =>
    have notValue : name ≠ Field.value := fun same => label (same ▸ rfl)
    simp only [longCell, if_neg notValue]
    repeat' split
    all_goals exact id
  | dimension key =>
    simp only [longCell, dimensionCell]
    split
    · cases o.dimensions.find? key.dimension <;> exact id
    · exact id
  | pivot key => exact id

theorem frame_eq_of_perm_of_long (long : p.query.layout = .long)
    (same : t.observations.Perm t'.observations) (tells : t.Tells .long) : p.frame t = p.frame t' := by
  have dimensions : dimensionKeys t.observations = dimensionKeys t'.observations :=
    congrArg SortedSet.toList (SortedSet.ofList_congr fun _ => (same.flatMap_right _).mem_iff)
  have shape : p.longShape t'.observations = p.longShape t.observations := by
    rw [longShape, ← dimensions, longShape]
  have apart : ((p.longShape t.observations).columns.map (·.key)).Nodup := by
    rw [longShape, keys_labelled_ofKeys]
    exact p.nodup_longKeys t.observations
  rw [frame_of_long long, frame_of_long long, shape]
  refine Frame.fill_congr fun c own => map_sortOn_eq_of_perm same fun o mo o' mo' alike => ?_
  -- no column is left out of the comparison, so rows that are sorted alike are alike in this one
  have sorted : c ∈ p.sortColumns (p.longShape t.observations) :=
    (p.sortColumns_perm apart).mem_iff.2 ((p.withArrangedColumns_perm apart).mem_iff.1 own)
  have place : (p.longValue c.key o).sortKey = (p.longValue c.key o').sortKey :=
    List.map_inj_left.1 alike c sorted
  by_cases value : c.key = .field Field.value
  · rw [value] at place ⊢
    exact tells o mo o' (same.mem_iff.2 mo') (Cell.compare_eq_iff.2 place)
  · have label := p.not_isNumber_longCell value
    simp only [longValue, Cell.coerce_of_not_isNumber (label o),
      Cell.coerce_of_not_isNumber (label o')] at place ⊢
    exact Cell.eq_of_sortKey_eq (label o) place

theorem frame_eq_of_perm_of_wide (wide : p.query.layout ≠ .long)
    (same : t.observations.Perm t'.observations)
    (apart : t.observations.Pairwise fun o o' => o.place ≠ o'.place) : p.frame t = p.frame t' := by
  have labels : p.indexValues t.observations = p.indexValues t'.observations :=
    congrArg SortedSet.toList (SortedSet.ofList_congr fun _ => (same.map _).mem_iff)
  have pivots : p.pivotKeys t.observations = p.pivotKeys t'.observations :=
    congrArg SortedSet.toList (SortedSet.ofList_congr fun _ => (same.map _).mem_iff)
  have values : p.wideValue t.observations = p.wideValue t'.observations := by
    funext key label
    cases key with
    | field | dimension => rfl
    | pivot key =>
      rw [wideValue_pivot wide, wideValue_pivot wide, BaseTable.valueAt_eq_of_perm apart same]
  rw [frame_of_wide wide, frame_of_wide wide, labels, values, wideShape, wideShape, pivots]

/-- The finished table does not depend on the order of the rows it is made from. -/
theorem frame_eq_of_perm (same : t.observations.Perm t'.observations)
    (tells : t.Tells p.query.layout) : p.frame t = p.frame t' := by
  cases layout : p.query.layout with
  | long => exact frame_eq_of_perm_of_long layout same (layout ▸ tells)
  | region | time =>
    rw [layout] at tells
    exact frame_eq_of_perm_of_wide (by simp [layout]) same tells

end Presentation

end RegionalTables
