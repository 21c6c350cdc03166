import RegionalTables.Proofs.BaseTable.Complete

/-! When a row of the base table keeps to the closed world of its query. The filter lets a fact pass
for any one of the selected measures, and each selected measure the fact holds then gives a row; a
row is closed exactly if the fact lies in the cell of the row's own measure. -/
namespace RegionalTables

/-- The row is made from the fact, which is of the row's statistic. -/
structure Observation.MadeFrom (o : Observation) (time : TimeField) (f : Fact) (m : Measure) :
    Prop where
  kind : f.text? "statistic" = some o.statistic
  made : BaseTable.observation? time o.statistic o.measure m f = some o

/-- The row is broken down exactly as selected, and so is the fact it was made from. -/
structure Observation.Closed (o : Observation) (f : Fact) (m : Measure) (b : Breakdown) : Prop where
  dimensions : ∀ d, o.dimensions.contains d = b.contains d
  listed : ∀ d values, b.find? d = some values → values.isEmpty = false →
    ∃ value ∈ values, o.dimensions.find? d = some value
  others : ∀ d, m.dimensions.contains d = true → b.contains d = false →
    f.storedText? o.measure d = none

/-- The fact stores the dimensions of a measure exactly as selected. -/
structure Fact.StoredAs (f : Fact) (measure : String) (m : Measure) (b : Breakdown) : Prop where
  selected : ∀ d, b.contains d = true → (f.storedText? measure d).isSome = true
  listed : ∀ d values, b.find? d = some values → values.isEmpty = false →
    ∃ value ∈ values, f.storedText? measure d = some value
  others : ∀ d, m.dimensions.contains d = true → b.contains d = false →
    f.storedText? measure d = none

namespace BaseTable

section

variable {c : Catalog} {time : TimeField} {m : Measure} {b : Breakdown} {f : Fact} {o : Observation}
  (nested : f.Nested c) (known : c.measure? o.statistic o.measure = some m)
  (within : ∀ d, b.contains d = true → m.dimensions.contains d = true)
  (made : observation? time o.statistic o.measure (m.restrict b) f = some o)

include nested known within made

/-- A selected dimension has in the row the text that is stored of it. -/
theorem find?_dimensions (d : String) : o.dimensions.find? d =
    if b.contains d = true then f.storedText? o.measure d else none := by
  rw [(measured_of_observation? made).2, SortedMap.find?_filterMap, Measure.restrict,
    SortedMap.find?_filterMap]
  by_cases selected : b.contains d = true
  · obtain ⟨dimension, found⟩ := SortedMap.contains_iff.1 (within d selected)
    simp [found, selected, Fact.dimension?_of_nested nested known (within d selected)]
  · cases m.dimensions.find? d with
    | none => simp [selected]
    | some dimension => simp [selected]

/-- A row is closed if and only if its fact stores what is selected. -/
theorem closed_iff_storedAs : o.Closed f m b ↔ f.StoredAs o.measure m b := by
  have found := find?_dimensions nested known within made
  constructor
  · intro closed
    refine ⟨fun d selected => ?_, fun d values choice some => ?_, closed.others⟩
    · have there := closed.dimensions d
      rw [SortedMap.contains, found d, if_pos selected, selected] at there
      exact there
    · obtain ⟨value, member, isValue⟩ := closed.listed d values choice some
      have selected : b.contains d = true := SortedMap.contains_iff.2 ⟨_, choice⟩
      rw [found d, if_pos selected] at isValue
      exact ⟨value, member, isValue⟩
  · intro stored
    refine ⟨fun d => ?_, fun d values choice some => ?_, stored.others⟩
    · rw [SortedMap.contains, found d]
      by_cases selected : b.contains d = true
      · rw [if_pos selected, selected]
        exact stored.selected d selected
      · simp [selected]
    · have selected : b.contains d = true := SortedMap.contains_iff.2 ⟨_, choice⟩
      rw [found d, if_pos selected]
      exact stored.listed d values choice some

end

end BaseTable

namespace Fact

/-- What the filter finds of the dimensions is what is stored of them, if none of them is called
like the suffix of exact matching. -/
theorem storedAs_iff_brokenDown {f : Fact} {c : Catalog} {statistic measure : String} {m : Measure}
    {b : Breakdown} (dotless : c.DotlessKeys) (nested : f.Nested c)
    (known : c.measure? statistic measure = some m)
    (within : ∀ d, b.contains d = true → m.dimensions.contains d = true)
    (plain : m.dimensions.contains "keyword" = false) :
    f.StoredAs measure m b ↔ f.BrokenDown c statistic measure b := by
  have present : ∀ d, m.dimensions.contains d = true →
      f.present (Filter.dimensionPath measure d) = (f.storedText? measure d).isSome := by
    intro d member
    have apart : d ≠ "keyword" := fun same => by simp [← same, member] at plain
    exact present_dimensionPath_of_nested nested known member dotless apart
  have text : ∀ d values, b.find? d = some values →
      f.fieldText? (Filter.keywordPath measure d) = f.storedText? measure d := by
    intro d values choice
    exact fieldText?_keywordPath_of_nested nested known
      (within d (SortedMap.contains_iff.2 ⟨_, choice⟩)) dotless
  constructor
  · intro stored
    constructor
    · intro d values choice _
      have selected : b.contains d = true := SortedMap.contains_iff.2 ⟨_, choice⟩
      rw [present d (within d selected)]
      exact stored.selected d selected
    · intro d values choice some
      rw [text d values choice]
      exact stored.listed d values choice some
    · intro n same d member unselected
      obtain rfl := Option.some.inj (known.symm.trans same)
      rw [present d member, stored.others d member unselected]
      rfl
  · intro broken
    constructor
    · intro d selected
      obtain ⟨values, choice⟩ := SortedMap.contains_iff.1 selected
      cases none : values.isEmpty with
      | true =>
        rw [← present d (within d selected)]
        exact broken.broken d values choice none
      | false =>
        obtain ⟨value, _, isValue⟩ := broken.listed d values choice none
        rw [← text d values choice, isValue]
        rfl
    · intro d values choice some
      rw [← text d values choice]
      exact broken.listed d values choice some
    · intro d member unselected
      have absent := broken.others m known d member unselected
      rw [present d member] at absent
      simpa using absent

end Fact

/-- What stands in the view is selected, and comes from the catalog. -/
theorem Service.measure?_view {s : Service} {q : Query} {statistic measure : String} {view : Measure}
    (viewed : (s.view q).measure? statistic measure = some view) :
    ∃ m b, s.catalog.measure? statistic measure = some m ∧
      q.data.measure? statistic measure = some b ∧ m.restrict b = view := by
  rw [Service.view, Catalog.measure?_restrict] at viewed
  obtain ⟨m, known, chosen⟩ := Option.bind_eq_some_iff.1 viewed
  obtain ⟨b, selected, same⟩ := Option.map_eq_some_iff.1 chosen
  exact ⟨m, b, known, selected, same⟩

namespace Filter

variable {s : Service} {facts : List Fact} {time : TimeField} {q : Query} {m : Measure}
  {b : Breakdown} {f : Fact} {o : Observation}

/-- The fact of a row holds the measure of the row, so of its clause the breakdown alone is open. -/
theorem accepts_cell_iff_brokenDown {c : Catalog} (dotless : Dotless o.measure)
    (origin : o.MadeFrom time f (m.restrict b)) :
    accepts f (cell c o.statistic (o.measure, b)) = true ↔
      f.BrokenDown c o.statistic o.measure b := by
  have kind : f.fieldText? "statistic" = some o.statistic := by
    rw [Fact.fieldText?_of_dotless f (by decide), origin.kind]
  have held : (f.measured o.measure).isMissing = false :=
    (BaseTable.measured_of_observation? origin.made).1
  have observed : f.observes o.statistic o.measure = true := by
    simp [Fact.observes, origin.kind, held]
  rw [accepts_cell_iff_inCell kind]
  constructor
  · intro inside
    exact inside.toBrokenDown
  · intro broken
    exact ⟨broken, kind, Fact.present_of_observes dotless observed⟩

/-- A passing fact that holds no other selected measure passed for the measure of its row. -/
theorem brokenDown_of_alone {c : Catalog} {text : String} (read : Query.read text = .ok q)
    (selected : q.data.measure? o.statistic o.measure = some b) (accepted : accepts f (ofQuery c q) = true)
    (kind : f.text? "statistic" = some o.statistic)
    (alone : ∀ other, (q.data.measure? o.statistic other).isSome = true → other ≠ o.measure →
      f.present other = false) : f.BrokenDown c o.statistic o.measure b := by
  obtain ⟨_, statistic, measure, breakdown, chosen, inside⟩ :=
    (accepts_ofQuery (Query.substantial_of_read read)).1 accepted
  have same : statistic = o.statistic := by
    have found := inside.kind
    rw [Fact.fieldText?_of_dotless f (by decide), kind] at found
    exact (Option.some.inj found).symm
  subst same
  by_cases own : measure = o.measure
  · subst own
    obtain rfl := Option.some.inj (selected.symm.trans chosen)
    exact inside.toBrokenDown
  · have absent := alone measure (by simp [chosen]) own
    rw [inside.measured] at absent
    contradiction

end Filter

namespace Service

/-- Each row is of a selected measure and made from a passing fact. It is closed exactly if the fact
stores the measure's dimensions as selected. If no dimension is called like the suffix of exact
matching, that is exactly if the measure's own clause accepts the fact. A fact that holds no other
selected measure gives closed rows then; one that passed for another measure alone does not. -/
theorem rows_closed_iff {s : Service} {facts : List Fact} {text : String} {q : Query}
    (held : s.store.source = .memory facts) (dotless : s.catalog.DotlessKeys)
    (nested : ∀ f ∈ facts, f.Nested s.catalog) (parsed : s.parse text = .ok q) :
    ∃ t, s.baseTable q = .ok t ∧ ∀ o ∈ t.observations, ∃ m b,
      s.catalog.measure? o.statistic o.measure = some m ∧
      q.data.measure? o.statistic o.measure = some b ∧
      (∃ f ∈ s.passing q facts, o.MadeFrom q.timeField f (m.restrict b)) ∧
      ∀ f ∈ s.passing q facts, o.MadeFrom q.timeField f (m.restrict b) →
        (o.Closed f m b ↔ f.StoredAs o.measure m b) ∧
        (m.dimensions.contains "keyword" = false →
          (o.Closed f m b ↔
            Filter.accepts f (Filter.cell s.catalog o.statistic (o.measure, b)) = true) ∧
          ((∀ other, (q.data.measure? o.statistic other).isSome = true → other ≠ o.measure →
            f.present other = false) → o.Closed f m b)) := by
  obtain ⟨read, checked⟩ := Catalog.parse_eq_ok_iff.1 parsed
  refine ⟨_, baseTable_of_memory held q, fun o member => ?_⟩
  obtain ⟨view, viewed, f, passed, kind, made⟩ := BaseTable.exists_fact_of_mem member
  obtain ⟨m, b, known, selected, rfl⟩ := measure?_view viewed
  have within := (Catalog.measure?_of_check checked selected)
  obtain ⟨n, same, within⟩ := within
  obtain rfl := Option.some.inj (known.symm.trans same)
  refine ⟨m, b, known, selected, ⟨f, passed, kind, made⟩, fun f passed origin => ?_⟩
  obtain ⟨stored, accepted⟩ := List.mem_filter.1 passed
  have closed := BaseTable.closed_iff_storedAs (nested f stored) known within origin.made
  refine ⟨closed, fun plain => ?_⟩
  have broken := Fact.storedAs_iff_brokenDown dotless (nested f stored) known within plain
  constructor
  · rw [closed, broken, Filter.accepts_cell_iff_brokenDown (dotless.measure known) origin]
  · intro alone
    exact closed.2 (broken.2 (Filter.brokenDown_of_alone read selected accepted origin.kind alone))

end Service

theorem Service.rows_of_women_closed :
    Sample.catalog.DotlessKeys ∧ (∀ f ∈ Sample.facts, f.Nested Sample.catalog) ∧
      Sample.service.parse Sample.text = .ok Sample.query ∧
      ∃ t, Sample.service.baseTable Sample.query = .ok t ∧ ∀ o ∈ t.observations,
        ∃ m b, ∃ f ∈ Sample.service.passing Sample.query Sample.facts,
          o.MadeFrom .year f (m.restrict b) ∧ o.Closed f m b := by
  have dotless : Sample.catalog.DotlessKeys := by decide +kernel
  have nested : ∀ f ∈ Sample.facts, f.Nested Sample.catalog := by decide +kernel
  have parsed : Sample.service.parse Sample.text = .ok Sample.query := by decide +kernel
  have single : ∀ s ∈ Sample.query.data.statistics.entries, ∀ m ∈ s.2.entries, m.1 = "BEVSTD" := by
    decide +kernel
  have plain : ∀ s ∈ Sample.catalog.statistics.entries, ∀ m ∈ s.2.measures.entries,
      m.2.dimensions.contains "keyword" = false := by decide +kernel
  obtain ⟨t, made, rows⟩ := rows_closed_iff rfl dotless nested parsed
  refine ⟨dotless, nested, parsed, t, made, fun o member => ?_⟩
  obtain ⟨m, b, known, selected, ⟨f, passed, origin⟩, closed⟩ := rows o member
  obtain ⟨_, outer, inner⟩ := Catalog.mem_of_measure? known
  obtain ⟨_, alone⟩ := (closed f passed origin).2 (plain _ outer _ inner)
  refine ⟨m, b, f, passed, origin, alone fun other chosen apart => ?_⟩
  obtain ⟨_, outer, inner⟩ := Selection.measure?_eq_some_iff.1 selected
  obtain ⟨_, found⟩ := Option.isSome_iff_exists.1 chosen
  obtain ⟨_, outer', inner'⟩ := Selection.measure?_eq_some_iff.1 found
  exact absurd ((single _ outer' _ inner').trans (single _ outer _ inner).symm) apart

namespace Sample

/-- Births are counted as such and by sex. -/
def births : Catalog := ⟨"Regionalstatistik", .ofList [("12612", {
  key := "12612"
  name := "Statistik der Geburten"
  description := none
  measures := .ofList [
    ("BEV001", ⟨"BEV001", "Lebendgeborene", none, .empty⟩),
    ("BEV002", ⟨"BEV002", "Lebendgeborene nach Geschlecht", none,
      .ofList [("GES", ⟨"GES", "Geschlecht", [⟨"GESM", "männlich"⟩]⟩)]⟩)] })]⟩

/-- One fact holds both counts. -/
def born : Fact := .ofList [
  ("BEV001", .byte 1),
  ("BEV002", .byte 2),
  ("path", .object (.ofList [("BEV002", .object (.ofList [("GES", .string "GESM")]))])),
  ("region_id", .string "11"),
  ("statistic", .string "12612"),
  ("year", .string "2015")]

def birthService : Service := ⟨births, names, ⟨"genesis", .memory [born]⟩⟩

def birthText : String := "data=12612:BEV001,12612:BEV002&region=11&time=all"

def birthQuery : Query where
  data := ⟨.ofList [("12612", .ofList [("BEV001", .empty), ("BEV002", .empty)])]⟩
  delimiter := .comma
  timeField := .year
  format := .csv
  labels := .id
  layout := .long
  level := .levels (.ofList [1])
  parent := none
  region := .ids (.ofList ["11"])
  sort := .time
  time := .all
  source := birthText

def birthsBySex : Measure where
  key := "BEV002"
  name := "Lebendgeborene nach Geschlecht"
  levels := none
  dimensions := .ofList [("GES", ⟨"GES", "Geschlecht", [⟨"GESM", "männlich"⟩]⟩)]

end Sample

/-- The births are asked for without regard to sex. The fact passes for the first count, and the
second gives a row of its own although it is a count of boys. -/
theorem Service.birth_row_not_closed :
    Sample.births.DotlessKeys ∧ Sample.born.Nested Sample.births ∧
      Sample.birthService.parse Sample.birthText = .ok Sample.birthQuery ∧
      Sample.births.measure? "12612" "BEV002" = some Sample.birthsBySex ∧
      Sample.birthQuery.data.measure? "12612" "BEV002" = some .empty ∧
      ∃ t, Sample.birthService.baseTable Sample.birthQuery = .ok t ∧ ∃ o ∈ t.observations,
        o.MadeFrom .year Sample.born (Sample.birthsBySex.restrict .empty) ∧
        ¬ o.Closed Sample.born Sample.birthsBySex .empty := by
  let row : Observation := ⟨"11", "2015", "12612", "BEV002", .integer 2, .empty⟩
  have made : Sample.birthService.baseTable Sample.birthQuery =
      .ok ⟨[⟨"11", "2015", "12612", "BEV001", .integer 1, .empty⟩, row], []⟩ := by decide +kernel
  refine ⟨by decide +kernel, by decide +kernel, by decide +kernel, by decide +kernel,
    by decide +kernel, _, made, row, by simp, ⟨by decide +kernel, by decide +kernel⟩, ?_⟩
  intro closed
  have absent := closed.others "GES" (by decide +kernel) (by decide +kernel)
  have stored : Sample.born.storedText? "BEV002" "GES" = some "GESM" := by decide +kernel
  rw [stored] at absent
  contradiction

end RegionalTables
