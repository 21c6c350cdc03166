import RegionalTables.BaseTable.Basic
import RegionalTables.Proofs.Collections

/-! Base tables of the same facts in another order. The rows are the same in another order, for the
latest time is the same however the facts are ordered. -/
namespace RegionalTables.BaseTable

theorem latest_eq_of_perm {l l' : List Observation} (same : l.Perm l') : latest l = latest l' := by
  refine same.foldl_eq' ?_ ""
  intro a _ b _ time
  grind

theorem keepLatest_perm {l l' : List Observation} (same : l.Perm l') :
    (keepLatest l).Perm (keepLatest l') := by
  simp only [keepLatest, latest_eq_of_perm same]
  exact same.filter _

variable {facts facts' : List Fact} (same : facts.Perm facts') (q : Query)

include same

theorem ofMeasure_perm (statistic measure : String) (m : Measure) :
    (ofMeasure q facts statistic measure m).Perm (ofMeasure q facts' statistic measure m) := by
  have all := same.filterMap (observation? q.timeField statistic measure m)
  simp only [ofMeasure]
  split
  · exact keepLatest_perm all
  · exact all

theorem ofStatistic_perm (statistic : String) (s : Statistic) :
    (ofStatistic q facts statistic s).Perm (ofStatistic q facts' statistic s) :=
  flatMap_perm fun _ _ => ofMeasure_perm (same.filter _) q ..

/-- Reordered facts give reordered rows. -/
theorem observations_perm (view : Catalog) :
    (ofFacts view q facts).observations.Perm (ofFacts view q facts').observations :=
  flatMap_perm fun _ _ => ofStatistic_perm same q ..

end RegionalTables.BaseTable
