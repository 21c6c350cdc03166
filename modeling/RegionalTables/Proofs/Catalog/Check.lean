import RegionalTables.Catalog.View
import RegionalTables.Proofs.Catalog.FirstUnknown

/-! What a checked query says of the catalog: all that it selects is there. The view of a query then
has exactly the selected measures, each with exactly its selected dimensions. -/
namespace RegionalTables

namespace Catalog

theorem parse_eq_ok_iff {c : Catalog} {names : RegionNames} {text : String} {q : Query} :
    c.parse names text = .ok q ↔ Query.read text = .ok q ∧ c.check names q = .ok () := by
  rw [parse, bind_eq_ok_iff]
  constructor
  · rintro ⟨_, read, rest⟩
    obtain ⟨_, checked, same⟩ := bind_eq_ok_iff.1 rest
    obtain rfl := Except.ok.inj same
    exact ⟨read, checked⟩
  · rintro ⟨read, checked⟩
    exact ⟨q, read, by rw [checked]; rfl⟩

/-- A checked selection names measures of the catalog and dimensions of these measures. -/
theorem measure?_of_check {c : Catalog} {names : RegionNames} {q : Query}
    {statistic measure : String} {b : Breakdown} (checked : c.check names q = .ok ())
    (selected : q.data.measure? statistic measure = some b) :
    ∃ m, c.measure? statistic measure = some m ∧
      ∀ d, b.contains d = true → m.dimensions.contains d = true := by
  have known := Mention.check_eq_ok_iff.1 checked
  have asked : (Mention.measure statistic measure).Of q := by simp [Mention.Of, Selection.Asks, selected]
  obtain ⟨m, found⟩ := Option.isSome_iff_exists.1 (known _ asked)
  refine ⟨m, found, fun d part => ?_⟩
  have asked : (Mention.dimension statistic measure d).Of q := by
    simpa [Mention.Of, Selection.Asks, Selection.values?, selected, SortedMap.contains] using part
  have there := known _ asked
  rwa [Mention.Known, dimension?, found] at there

theorem measure?_restrict (c : Catalog) (selection : Selection) (statistic measure : String) :
    (c.restrict selection).measure? statistic measure =
      (c.measure? statistic measure).bind fun m =>
        (selection.measure? statistic measure).map m.restrict := by
  simp only [measure?, statistic?, restrict, SortedMap.find?_filterMap, Selection.measure?]
  cases c.statistics.find? statistic with
  | none => rfl
  | some s =>
    cases selection.statistic? statistic with
    | none => simp
    | some choice => simp [Statistic.measure?, Statistic.restrict, SortedMap.find?_filterMap]

/-- A selected measure stands in the view with its selected dimensions. -/
theorem measure?_restrict_of_check {c : Catalog} {names : RegionNames} {q : Query}
    {statistic measure : String} {b : Breakdown} (checked : c.check names q = .ok ())
    (selected : q.data.measure? statistic measure = some b) :
    ∃ m, c.measure? statistic measure = some m ∧
      (c.restrict q.data).measure? statistic measure = some (m.restrict b) ∧
      ∀ d, b.contains d = true → m.dimensions.contains d = true := by
  obtain ⟨m, known, dimensions⟩ := measure?_of_check checked selected
  exact ⟨m, known, by simp [measure?_restrict, known, selected], dimensions⟩

end Catalog

end RegionalTables
