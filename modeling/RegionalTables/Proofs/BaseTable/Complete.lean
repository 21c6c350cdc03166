import RegionalTables.Proofs.BaseTable.Rows
import RegionalTables.Proofs.Fact
import RegionalTables.Proofs.Filter.Meaning

/-! Nothing selected is lost between the store and the base table, and nothing is counted twice.
The latest time is left out: it drops rows on purpose. -/
namespace RegionalTables

/-- A value that is not missing stands in a field the filter finds as well. -/
theorem Fact.present_of_observes {f : Fact} {statistic measure : String} (dotless : Dotless measure)
    (observed : f.observes statistic measure = true) : f.present measure = true := by
  have held : (f.measured measure).isMissing = false := by
    simpa using (Bool.and_eq_true_iff.1 observed).2
  rw [present, field?_of_dotless f dotless]
  cases found : f.get? measure with
  | none => simp [measured, found, Cell.isMissing] at held
  | some v =>
    cases v with
    | null => simp [measured, found, unwrap, Cell.ofValue, Cell.isMissing] at held
    | _ => rfl

/-- An admitted fact in a selected cell passes the filter. -/
theorem Filter.accepts_of_observes {c : Catalog} {names : RegionNames} {text : String} {q : Query}
    {statistic measure : String} {b : Breakdown} {f : Fact} (dotless : c.DotlessKeys)
    (parsed : c.parse names text = .ok q) (selected : q.data.measure? statistic measure = some b)
    (admitted : q.Admits f) (broken : f.BrokenDown c statistic measure b)
    (observed : f.observes statistic measure = true) : accepts f (ofQuery c q) = true := by
  obtain ⟨read, checked⟩ := Catalog.parse_eq_ok_iff.1 parsed
  obtain ⟨m, known, _⟩ := Catalog.measure?_of_check checked selected
  have kind : f.fieldText? "statistic" = some statistic := by
    rw [Fact.fieldText?_of_dotless f (by decide)]
    simpa using (Bool.and_eq_true_iff.1 observed).1
  have measured : f.present measure = true :=
    Fact.present_of_observes (dotless.measure known) observed
  rw [accepts_ofQuery (Query.substantial_of_read read)]
  exact ⟨admitted, statistic, measure, b, selected, broken, kind, measured⟩

namespace Service

/-- The facts of a store in memory that pass the filter. -/
def passing (s : Service) (q : Query) (facts : List Fact) : List Fact :=
  facts.filter (Filter.ofQuery s.catalog q).accepts

end Service

namespace Sample

/-- Men are counted too, but not asked for. -/
def men : Fact := .ofList [
  ("BEVSTD", .byte 5),
  ("path", .object (.ofList [("BEVSTD", .object (.ofList [("GES", .string "GESM")]))])),
  ("region_id", .string "05111"),
  ("statistic", .string "12411"),
  ("year", .string "2005")]

def names : RegionNames :=
  ⟨.ofList [("05", "Nordrhein-Westfalen"), ("05111", "Düsseldorf"), ("11", "Berlin")]⟩

def facts : List Fact := [men, women, women]

def service : Service := ⟨catalog, names, ⟨"genesis", .memory facts⟩⟩

end Sample

end RegionalTables
