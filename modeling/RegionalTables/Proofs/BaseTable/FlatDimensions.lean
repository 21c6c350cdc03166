import RegionalTables.Proofs.BaseTable.ClosedWorld
import RegionalTables.Proofs.Filter.Partition

/-! Where a dimension is looked for. The filter goes by the dimension's path. A row goes by the
dimension's own name first, so a fact that holds a dimension flat passes as a total and is still shown
broken down, or is shown under a value that nobody asked for. -/
namespace RegionalTables

open Json RegionalTables.Filter

namespace Fact

/-- A row shows of a dimension what the filter finds of it. -/
def Agrees (f : Fact) (measure d : String) : Prop :=
  ∀ value, f.dimension? measure d = some value ↔ f.fieldText? (keywordPath measure d) = some value

/-- What the fact stores of a dimension is hidden neither from rows nor from the filter. -/
structure Unhidden (f : Fact) (measure d : String) : Prop where
  /-- A flat text says the same as the path. -/
  flat : f.get? (dimensionPath measure d) = none →
    ∀ value, f.text? d = some value → f.storedText? measure d = some value
  /-- A field with the whole path as its name, which the filter takes first, says what is shown. -/
  whole : ∀ v, f.get? (dimensionPath measure d) = some v →
    (f.text? d).or (f.storedText? measure d) = v.scalarText?

/-- The filter found the value, among the listed ones if there are any. -/
structure Chosen (f : Fact) (measure d : String) (values : SortedSet String) (value : String) :
    Prop where
  found : f.fieldText? (keywordPath measure d) = some value
  listed : values.isEmpty = false → value ∈ values

theorem agrees_iff_eq {f : Fact} {measure d : String} :
    f.Agrees measure d ↔ f.dimension? measure d = f.fieldText? (keywordPath measure d) :=
  ⟨Option.ext, fun same value => by rw [same]⟩

theorem dimension?_eq_or (f : Fact) (measure d : String) :
    f.dimension? measure d = (f.text? d).or (f.storedText? measure d) := by
  rw [dimension?]
  cases f.text? d with
  | some value => rfl
  | none => simp [storedText?, stored?, Option.bind_assoc]

/-- The exact-match suffix is no part of the path. -/
theorem field?_dimensionPath (f : Fact) {measure d : String} (dotless : Dotless d)
    (plain : d ≠ "keyword") :
    f.field? (dimensionPath measure d) = f.field? (keywordPath measure d) := by
  rw [field?, field?, plainName_dimensionPath dotless plain, plainName_keywordPath]

section

variable {f : Fact} {measure d : String} (dotlessMeasure : Dotless measure) (dotless : Dotless d)

include dotlessMeasure dotless

theorem fieldText?_keywordPath : f.fieldText? (keywordPath measure d) =
    match f.get? (dimensionPath measure d) with
    | some v => v.scalarText?
    | none => f.storedText? measure d := by
  cases whole : f.get? (dimensionPath measure d) with
  | some v => simp only [fieldText?, field?, plainName_keywordPath, whole, Option.bind_some]
  | none => rw [fieldText?, field?_path dotlessMeasure dotless whole (plainName_keywordPath measure d),
      storedText?]

theorem agrees_iff_unhidden : f.Agrees measure d ↔ f.Unhidden measure d := by
  rw [agrees_iff_eq, dimension?_eq_or, fieldText?_keywordPath dotlessMeasure dotless]
  cases whole : f.get? (dimensionPath measure d) with
  -- the filter looks no further than the field of this name
  | some v =>
    constructor
    · intro same
      exact ⟨by simp [whole], by simpa [whole] using same⟩
    · intro unhidden
      exact unhidden.whole v whole
  | none =>
    constructor
    · intro same
      refine ⟨fun _ value flat => ?_, by simp [whole]⟩
      rw [flat, Option.some_or] at same
      exact same.symm
    · intro unhidden
      cases flat : f.text? d with
      | none => rfl
      | some value => rw [unhidden.flat whole value flat, Option.some_or]

end

/-- What is not there has no text. -/
theorem fieldText?_of_not_present {f : Fact} {field : String} (absent : f.present field = false) :
    f.fieldText? field = none := by
  rw [present] at absent
  rw [fieldText?]
  cases found : f.field? field with
  | none => rfl
  | some v =>
    cases v <;> simp_all [Value.isNull, Value.scalarText?]

end Fact

namespace Filter

/-- A passing fact lies in the cell of the only measure that is asked for. -/
theorem inCell_of_single {c : Catalog} {statistic measure text : String} {q : Query} {b : Breakdown}
    {f : Fact} (read : Query.read text = .ok q) (single : q.data = .single statistic measure b)
    (accepted : accepts f (ofQuery c q) = true) : f.InCell c statistic measure b := by
  obtain ⟨_, s, n, b', selected, inside⟩ := (accepts_iff_of_read read).1 accepted
  rw [single, Selection.measure?_single] at selected
  obtain ⟨rfl, rfl, rfl⟩ := selected
  exact inside

end Filter

namespace Fact

variable {c : Catalog} {statistic measure d : String} {m : Measure} {b : Breakdown} {f : Fact}

/-- A fact in a cell is shown broken down by a dimension that is not selected if and only if the two
look-ups disagree on it. -/
theorem InCell.agrees_iff_none (inside : f.InCell c statistic measure b) (dotless : c.DotlessKeys)
    (known : c.measure? statistic measure = some m) (member : m.dimensions.contains d = true)
    (unselected : b.contains d = false) (plain : d ≠ "keyword") :
    f.Agrees measure d ↔ f.dimension? measure d = none := by
  have absent := inside.others m known d member unselected
  have nothing : f.fieldText? (keywordPath measure d) = none := by
    have other := fieldText?_of_not_present absent
    rwa [fieldText?, field?_dimensionPath f (dotless.dimension known member) plain] at other
  rw [agrees_iff_eq, nothing]

/-- A value shown of a fact in a cell is one that the filter found if and only if the two look-ups
agree. -/
theorem InCell.chosen_iff_agrees {values : SortedSet String} {value : String}
    (inside : f.InCell c statistic measure b) (selected : b.find? d = some values)
    (shown : f.dimension? measure d = some value) :
    f.Chosen measure d values value ↔ f.Agrees measure d := by
  rw [agrees_iff_eq, shown]
  constructor
  · intro chosen
    exact chosen.found.symm
  · intro same
    refine ⟨same.symm, fun some => ?_⟩
    obtain ⟨listed, among, found⟩ := inside.listed d values selected some
    obtain rfl := Option.some.inj (same.trans found)
    exact among

end Fact

/-- Rows show selected dimensions of the measure, each as it is read from the fact. -/
theorem Observation.MadeFrom.dimension? {time : TimeField} {m : Measure} {b : Breakdown} {f : Fact}
    {o : Observation} {d value : String} (origin : o.MadeFrom time f (m.restrict b))
    (shown : o.dimensions.find? d = some value) :
    m.dimensions.contains d = true ∧ (∃ values, b.find? d = some values) ∧
      f.dimension? o.measure d = some value := by
  rw [(BaseTable.measured_of_observation? origin.made).2, SortedMap.find?_filterMap,
    Measure.restrict, SortedMap.find?_filterMap] at shown
  obtain ⟨_, kept, shown⟩ := Option.bind_eq_some_iff.1 shown
  obtain ⟨dimension, found, selected⟩ := Option.bind_eq_some_iff.1 kept
  have chosen : b.contains d = true := by
    cases contained : b.contains d with
    | true => rfl
    | false => simp [contained] at selected
  exact ⟨SortedMap.contains_iff.2 ⟨dimension, found⟩, SortedMap.contains_iff.1 chosen, shown⟩

namespace Service

/-- Rows and filter find the same text of a dimension if and only if nothing hides what is stored of
it. For a query about one measure, a passing fact is shown broken down by a dimension that is not
selected, and a row shows a value that the filter did not choose, exactly where something does. -/
theorem dimensions_shown_iff {s : Service} {statistic measure : String} {m : Measure}
    (dotless : s.catalog.DotlessKeys) (known : s.catalog.measure? statistic measure = some m) :
    (∀ f d, m.dimensions.contains d = true →
      (Fact.Agrees f measure d ↔ f.Unhidden measure d) ∧
        (d ≠ "keyword" →
          f.field? (dimensionPath measure d) = f.field? (keywordPath measure d))) ∧
    ∀ text q b, s.parse text = .ok q → q.data = .single statistic measure b →
      ∀ facts, (∀ f ∈ facts, accepts f (ofQuery s.catalog q) = true) →
        (∀ f ∈ facts, ∀ d, m.dimensions.contains d = true → b.contains d = false →
          d ≠ "keyword" → (f.dimension? measure d = none ↔ f.Unhidden measure d)) ∧
        ∀ o ∈ (BaseTable.ofFacts (s.view q) q facts).observations, ∃ f ∈ facts,
          o.MadeFrom q.timeField f (m.restrict b) ∧
          ∀ d value, o.dimensions.find? d = some value → ∃ values, b.find? d = some values ∧
            (f.Chosen measure d values value ↔ f.Unhidden measure d) := by
  have plainMeasure := dotless.measure known
  have agrees (f : Fact) {d : String} (member : m.dimensions.contains d = true) :
      f.Agrees measure d ↔ f.Unhidden measure d :=
    Fact.agrees_iff_unhidden plainMeasure (dotless.dimension known member)
  refine ⟨fun f d member => ⟨agrees f member, fun plain => ?_⟩,
    fun text q b parsed single facts passed => ?_⟩
  · exact f.field?_dimensionPath (dotless.dimension known member) plain
  have read := (Catalog.parse_eq_ok_iff.1 parsed).1
  refine ⟨fun f among d member unselected plain => ?_, fun o row => ?_⟩
  · have inside := inCell_of_single read single (passed f among)
    rw [← agrees f member, inside.agrees_iff_none dotless known member unselected plain]
  · obtain ⟨_, viewed, f, among, kind, made⟩ := BaseTable.exists_fact_of_mem row
    obtain ⟨m', b', known', selected, rfl⟩ := measure?_view viewed
    rw [single, Selection.measure?_single] at selected
    obtain ⟨rfl, rfl, rfl⟩ := selected
    obtain rfl := Option.some.inj (known.symm.trans known')
    have origin : o.MadeFrom q.timeField f (m.restrict b') := ⟨kind, made⟩
    have inside := inCell_of_single read single (passed f among)
    refine ⟨f, among, origin, fun d value shown => ?_⟩
    obtain ⟨member, ⟨values, chosen⟩, same⟩ := origin.dimension? shown
    exact ⟨values, chosen, (inside.chosen_iff_agrees chosen same).trans (agrees f member)⟩

end Service

theorem Service.dimensions_of_women :
    Sample.catalog.DotlessKeys ∧
      Sample.catalog.measure? "12411" "BEVSTD" = some Sample.population ∧
      Sample.service.parse Sample.text = .ok Sample.query ∧
      Sample.query.data = .single "12411" "BEVSTD" (.ofList [("GES", .ofList ["GESW"])]) ∧
      accepts Sample.women (ofQuery Sample.catalog Sample.query) = true ∧
      Sample.women.Unhidden "BEVSTD" "NAT" := by
  have dotless : Sample.catalog.DotlessKeys := by decide +kernel
  have known : Sample.service.catalog.measure? "12411" "BEVSTD" = some Sample.population := by
    decide +kernel
  have parsed : Sample.service.parse Sample.text = .ok Sample.query := by decide +kernel
  have single : Sample.query.data =
      .single "12411" "BEVSTD" (.ofList [("GES", .ofList ["GESW"])]) := by decide +kernel
  have accepted : accepts Sample.women (ofQuery Sample.catalog Sample.query) = true := by
    decide +kernel
  have passed : ∀ f ∈ [Sample.women], accepts f (ofQuery Sample.catalog Sample.query) = true := by
    simpa using accepted
  have shown := ((dimensions_shown_iff dotless known).2 _ _ _ parsed single _ passed).1
    Sample.women (List.mem_singleton_self _) "NAT" (by decide +kernel) (by decide +kernel)
    (by decide)
  exact ⟨dotless, known, parsed, single, accepted, shown.1 (by decide +kernel)⟩

namespace Sample

/-- Women whose sex is told flat. -/
def flatWomen : Fact := .ofList [
  ("BEVSTD", .byte 4),
  ("GES", .string "GESW"),
  ("region_id", .string "11"),
  ("statistic", .string "12411"),
  ("year", .string "2005")]

/-- Women by the path, men by the flat text. -/
def disputed : Fact := .ofList [
  ("BEVSTD", .byte 4),
  ("GES", .string "GESM"),
  ("path", .object (.ofList [("BEVSTD", .object (.ofList [("GES", .string "GESW")]))])),
  ("region_id", .string "05111"),
  ("statistic", .string "12411"),
  ("year", .string "2005")]

def totalText : String := "data=12411:BEVSTD&region=11&time=all"

def totalQuery : Query where
  data := .single "12411" "BEVSTD" .empty
  delimiter := .comma
  timeField := .year
  format := .csv
  labels := .id
  layout := .long
  level := .levels (.ofList [1])
  parent := none
  region := .ids (.ofList ["11"])
  sort := .time
  time := .all
  source := totalText

end Sample

/-- Women pass for the whole population although they are read as women, and where women are asked
for, men are shown. -/
theorem Service.women_shown_as_stored_flat :
    Sample.service.parse Sample.totalText = .ok Sample.totalQuery ∧
      accepts Sample.flatWomen (ofQuery Sample.catalog Sample.totalQuery) = true ∧
      Sample.flatWomen.dimension? "BEVSTD" "GES" = some "GESW" ∧
      Sample.flatWomen.fieldText? (dimensionPath "BEVSTD" "GES") = none ∧
      Sample.service.parse Sample.text = .ok Sample.query ∧
      accepts Sample.disputed (ofQuery Sample.catalog Sample.query) = true ∧
      (BaseTable.ofFacts (Sample.service.view Sample.query) Sample.query
        [Sample.disputed]).observations.map (·.dimensions.find? "GES") = [some "GESM"] := by
  decide +kernel

end RegionalTables
