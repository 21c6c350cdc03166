import RegionalTables.Proofs.Catalog.Check

/-! The view of a selection. It has exactly the statistics, measures and dimensions that the selection
names, if a check found all of them, and each is what it is in the whole catalog but for the children
left out. -/
namespace RegionalTables

/-- The view holds exactly what the selection names, every node as it is in the catalog but for its
children. -/
structure Catalog.IsView (c : Catalog) (s : Selection) (view : Catalog) : Prop where
  name : view.name = c.name
  statistics : ∀ statistic, (view.statistic? statistic).isSome = (s.statistic? statistic).isSome
  measures : ∀ statistic measure,
    (view.measure? statistic measure).isSome = (s.measure? statistic measure).isSome
  dimensions : ∀ statistic measure dimension,
    (view.dimension? statistic measure dimension).isSome =
      (s.values? statistic measure dimension).isSome
  statisticKept : ∀ statistic kept, view.statistic? statistic = some kept →
    ∃ whole, c.statistic? statistic = some whole ∧ kept = { whole with measures := kept.measures }
  measureKept : ∀ statistic measure kept, view.measure? statistic measure = some kept →
    ∃ whole, c.measure? statistic measure = some whole ∧
      kept = { whole with dimensions := kept.dimensions }
  dimensionKept : ∀ statistic measure dimension kept,
    view.dimension? statistic measure dimension = some kept →
      c.dimension? statistic measure dimension = some kept

/-! What is found in a view. -/

theorem Measure.dimension?_restrict (m : Measure) (b : Breakdown) (dimension : String) :
    (m.restrict b).dimension? dimension =
      if b.contains dimension then m.dimension? dimension else none := by
  rw [restrict, dimension?, SortedMap.find?_filterMap, dimension?]
  cases m.dimensions.find? dimension <;> simp

namespace Catalog

variable {c : Catalog} {s : Selection}

theorem statistic?_restrict (c : Catalog) (s : Selection) (statistic : String) :
    (c.restrict s).statistic? statistic =
      (c.statistic? statistic).bind fun whole => (s.statistic? statistic).map whole.restrict :=
  SortedMap.find?_filterMap _ _ _

theorem dimension?_restrict (c : Catalog) (s : Selection) (statistic measure dimension : String) :
    (c.restrict s).dimension? statistic measure dimension =
      if (s.values? statistic measure dimension).isSome then c.dimension? statistic measure dimension
      else none := by
  rw [dimension?, measure?_restrict, dimension?, Selection.values?]
  cases c.measure? statistic measure with
  | none => simp
  | some m =>
    cases s.measure? statistic measure with
    | none => rfl
    | some b => exact m.dimension?_restrict b dimension

theorem statistic_of_restrict {statistic : String} {kept : Statistic}
    (found : (c.restrict s).statistic? statistic = some kept) :
    ∃ whole, c.statistic? statistic = some whole ∧ kept = { whole with measures := kept.measures } := by
  rw [statistic?_restrict] at found
  obtain ⟨whole, known, named⟩ := Option.bind_eq_some_iff.1 found
  obtain ⟨_, _, rfl⟩ := Option.map_eq_some_iff.1 named
  exact ⟨whole, known, rfl⟩

theorem measure_of_restrict {statistic measure : String} {kept : Measure}
    (found : (c.restrict s).measure? statistic measure = some kept) :
    ∃ whole, c.measure? statistic measure = some whole ∧
      kept = { whole with dimensions := kept.dimensions } := by
  rw [measure?_restrict] at found
  obtain ⟨whole, known, named⟩ := Option.bind_eq_some_iff.1 found
  obtain ⟨_, _, rfl⟩ := Option.map_eq_some_iff.1 named
  exact ⟨whole, known, rfl⟩

theorem dimension_of_restrict {statistic measure dimension : String} {kept : Dimension}
    (found : (c.restrict s).dimension? statistic measure dimension = some kept) :
    c.dimension? statistic measure dimension = some kept := by
  rw [dimension?_restrict] at found
  exact (Option.ite_none_right_eq_some.1 found).2

/-! What a check says of the view. -/

theorem statistic_of_check {names : RegionNames} {q : Query} {statistic : String}
    {choice : MeasureChoice} (checked : c.check names q = .ok ())
    (selected : q.data.statistic? statistic = some choice) :
    ∃ whole, c.statistic? statistic = some whole := by
  obtain ⟨_, selection, _⟩ := bind_eq_ok_iff.1 checked
  have known := forM_eq_ok_iff.1 selection _ (SortedMap.find?_eq_some_iff.1 selected)
  rw [checkStatistic] at known
  split at known
  · contradiction
  · next whole found => exact ⟨whole, found⟩

theorem isView_of_check {names : RegionNames} {q : Query} (checked : c.check names q = .ok ()) :
    c.IsView q.data (c.restrict q.data) where
  name := rfl
  statistics statistic := by
    rw [statistic?_restrict]
    cases selected : q.data.statistic? statistic with
    | none => simp
    | some choice =>
      obtain ⟨whole, known⟩ := statistic_of_check checked selected
      simp [known]
  measures statistic measure := by
    rw [measure?_restrict]
    cases selected : q.data.measure? statistic measure with
    | none => simp
    | some b =>
      obtain ⟨whole, known, _⟩ := measure?_of_check checked selected
      simp [known]
  dimensions statistic measure dimension := by
    rw [dimension?_restrict, Selection.values?]
    cases selected : q.data.measure? statistic measure with
    | none => rfl
    | some b =>
      obtain ⟨whole, known, dimensions⟩ := measure?_of_check checked selected
      rw [Option.bind_some]
      split
      · next listed =>
        have there := dimensions dimension listed
        rw [listed, Catalog.dimension?, known]
        exact there
      · next unlisted => simpa using unlisted
  statisticKept _ _ := statistic_of_restrict
  measureKept _ _ _ := measure_of_restrict
  dimensionKept _ _ _ _ := dimension_of_restrict

end Catalog

/-! A view of a view. -/

theorem Measure.restrict_restrict (m : Measure) (b : Breakdown) :
    (m.restrict b).restrict b = m.restrict b := by
  have dimensions := SortedMap.filterMap_again (m := m.dimensions)
    (f := fun key d => if b.contains key then some d else none) fun key d e kept =>
      Option.ite_none_right_eq_some.2 ⟨(Option.ite_none_right_eq_some.1 kept).1, rfl⟩
  simp only [restrict, dimensions]

theorem Statistic.restrict_restrict (s : Statistic) (choice : MeasureChoice) :
    (s.restrict choice).restrict choice = s.restrict choice := by
  have measures := SortedMap.filterMap_again (m := s.measures)
    (f := fun key m => (choice.find? key).map m.restrict) (by
      intro key m n kept
      obtain ⟨b, named, rfl⟩ := Option.map_eq_some_iff.1 kept
      rw [named, Option.map_some, m.restrict_restrict b])
  simp only [restrict, measures]

theorem Catalog.restrict_restrict (c : Catalog) (s : Selection) :
    (c.restrict s).restrict s = c.restrict s := by
  have statistics := SortedMap.filterMap_again (m := c.statistics)
    (f := fun key t => (s.statistic? key).map t.restrict) (by
      intro key t u kept
      obtain ⟨choice, named, rfl⟩ := Option.map_eq_some_iff.1 kept
      rw [named, Option.map_some, t.restrict_restrict choice])
  simp only [restrict, statistics]

end RegionalTables
