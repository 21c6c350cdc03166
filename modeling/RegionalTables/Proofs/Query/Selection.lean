import RegionalTables.Proofs.Query.Fields
import RegionalTables.Proofs.Query.Merge

/-! What every query that was read asks for: some statistic, and of each statistic some measure.
Without it a filter would have an empty group of alternatives, which lets every fact pass. -/
namespace RegionalTables

namespace Selection

/-- Something is asked for at both upper levels. A measure may be asked for without dimensions. -/
structure Substantial (s : Selection) : Prop where
  statistics : s.statistics.entries ≠ []
  measures : ∀ choice ∈ s.statistics.entries, choice.2.entries ≠ []

theorem measure?_eq_some_iff {s : Selection} {statistic measure : String} {b : Breakdown} :
    s.measure? statistic measure = some b ↔
      ∃ choice, (statistic, choice) ∈ s.statistics.entries ∧ (measure, b) ∈ choice.entries := by
  simp only [measure?, statistic?, Option.bind_eq_some_iff, SortedMap.find?_eq_some_iff]

/-- Where a measure is asked for, and no statistic without a measure, there is something. -/
theorem Filled.substantial {s : Selection} (filled : s.Filled) {statistic measure : String}
    (asked : s.Asks (.measure statistic measure)) : s.Substantial := by
  obtain ⟨b, found⟩ := Option.isSome_iff_exists.1 asked
  obtain ⟨choice, listed, _⟩ := measure?_eq_some_iff.1 found
  exact ⟨List.ne_nil_of_mem listed, filled⟩

theorem substantial_merge {es : List Entry} {e : Entry} (member : e ∈ es) :
    (merge es).Substantial :=
  (filled_merge es).substantial (asks_merge.2 ⟨e, member, rfl, rfl⟩)

end Selection

/-- A query that was read asks for something. -/
theorem Query.substantial_of_read {text : String} {q : Query} (read : Query.read text = .ok q) :
    q.data.Substantial := by
  obtain ⟨given, entries⟩ := (ofArguments_eq_ok_iff.1 read).1.data
  obtain ⟨valid, filled, asks⟩ := Selection.ofEntries_eq_ok_iff.1 entries
  obtain ⟨text, member⟩ := List.exists_mem_of_ne_nil _ given
  obtain ⟨e, own⟩ := valid text member
  exact filled.substantial ((asks (.measure e.statistic e.measure)).2 ⟨text, member, e, own, rfl, rfl⟩)

end RegionalTables
