import RegionalTables.Filter.OfQuery
import RegionalTables.Proofs.Query.Selection

/-! What the filter of a query accepts. A fact passes exactly if it meets the query's conditions on
region, level, time and parent and lies in the cell of one selected measure. The filter is a tree of
groups; what it means is said here on the fields of the fact alone. -/
namespace RegionalTables

open RegionalTables.Filter

/-- A time holds of a fact by its year, whatever field the answer shows. -/
def TimeChoice.Holds (time : TimeChoice) (f : Fact) : Prop :=
  match time with
  | .all | .last => True
  | .year y => f.fieldText? "year" = some (toString y.toNat)
  | .range low high => ∃ x, f.fieldNumber? "year" = some x ∧
      (∀ y, low = some y → (Binary64.ofInt y.toNat).atMost x = true) ∧
      (∀ y, high = some y → x.atMost (Binary64.ofInt y.toNat) = true)

/-- The conditions of a query that do not depend on the data it selects. -/
structure Query.Admits (q : Query) (f : Fact) : Prop where
  region : ∀ ids, q.region = .ids ids → ∃ id ∈ ids, f.fieldText? "region_id" = some id
  level : ∀ levels, q.region = .all → q.level = .levels levels →
    ∃ level ∈ levels, f.fieldText? "region_level" = some (toString level.toNat)
  time : q.time.Holds f
  parent : ∀ start, q.parent = some start →
    ∃ id, f.fieldText? "region_id" = some id ∧ start.toList <+: id.toList

/-- The fact is broken down as the breakdown says: by each of its dimensions, with a listed value
where values are listed, and by no other dimension of the measure. -/
structure Fact.BrokenDown (f : Fact) (c : Catalog) (statistic measure : String) (b : Breakdown) :
    Prop where
  broken : ∀ d values, b.find? d = some values → values.isEmpty = true →
    f.present (dimensionPath measure d) = true
  listed : ∀ d values, b.find? d = some values → values.isEmpty = false →
    ∃ value ∈ values, f.fieldText? (keywordPath measure d) = some value
  others : ∀ m, c.measure? statistic measure = some m → ∀ d, m.dimensions.contains d = true →
    b.contains d = false → f.present (dimensionPath measure d) = false

/-- The fact lies in the cell of a measure: it holds the measure, broken down as selected. -/
structure Fact.InCell (f : Fact) (c : Catalog) (statistic measure : String) (b : Breakdown) :
    Prop extends f.BrokenDown c statistic measure b where
  kind : f.fieldText? "statistic" = some statistic
  measured : f.present measure = true

namespace Filter

/-- A group without alternatives. -/
theorem accepts_bool {must mustNot : List Filter} {f : Fact} :
    accepts f (.bool must mustNot []) = true ↔
      (∀ g ∈ must, accepts f g = true) ∧ (∀ g ∈ mustNot, accepts f g = false) := by
  simp [accepts, acceptsAll_eq, acceptsAny_eq]

theorem accepts_all {l : List Filter} {f : Fact} :
    accepts f (all l) = true ↔ ∀ g ∈ l, accepts f g = true := by
  simp [all, accepts_bool]

/-- Without any alternative this would accept everything. -/
theorem accepts_any {l : List Filter} {f : Fact} (some : l ≠ []) :
    accepts f (any l) = true ↔ ∃ g ∈ l, accepts f g = true := by
  have nonempty : l.isEmpty = false := by simpa using some
  simp [any, accepts, acceptsAll, acceptsAny, acceptsAny_eq, nonempty]

theorem accepts_term {field value : String} {f : Fact} :
    accepts f (.term field value) = true ↔ f.fieldText? field = some value := by
  simp [accepts]

theorem accepts_terms {field : String} {values : List String} {f : Fact} :
    accepts f (.terms field values) = true ↔ ∃ v ∈ values, f.fieldText? field = some v := by
  cases text : f.fieldText? field with
  | none => simp [accepts, text]
  | some t => simp [accepts, text]

theorem accepts_oneOf {field : String} {values : List String} {f : Fact} :
    accepts f (oneOf field values) = true ↔ ∃ v ∈ values, f.fieldText? field = some v := by
  unfold oneOf
  split
  · simp [accepts_term]
  · exact accepts_terms

theorem accepts_present {field : String} {f : Fact} :
    accepts f (.present field) = f.present field := by
  simp [accepts]

theorem accepts_starts {field start : String} {f : Fact} :
    accepts f (.starts field start) = true ↔
      ∃ text, f.fieldText? field = some text ∧ start.toList <+: text.toList := by
  cases text : f.fieldText? field with
  | none => simp [accepts, text]
  | some t => simp [accepts, text]

theorem accepts_range {field : String} {low high : Option Int} {f : Fact} :
    accepts f (.range field low high) = true ↔ ∃ x, f.fieldNumber? field = some x ∧
      (∀ b, low = some b → (Binary64.ofInt b).atMost x = true) ∧
      (∀ b, high = some b → x.atMost (Binary64.ofInt b) = true) := by
  cases number : f.fieldNumber? field with
  | none => simp [accepts, number]
  | some x => cases low <;> cases high <;> simp [accepts, number, within]

theorem accepts_region {q : Query} {f : Fact} :
    (∀ g, region q = some g → accepts f g = true) ↔
      ∀ ids, q.region = .ids ids → ∃ id ∈ ids, f.fieldText? "region_id" = some id := by
  cases choice : q.region with
  | all => simp [region, choice]
  | ids ids => simp [region, choice, accepts_oneOf, SortedSet.mem_toList]

theorem accepts_regionLevel {q : Query} {f : Fact} :
    (∀ g, regionLevel q = some g → accepts f g = true) ↔
      ∀ levels, q.region = .all → q.level = .levels levels →
        ∃ level ∈ levels, f.fieldText? "region_level" = some (toString level.toNat) := by
  cases choice : q.region with
  | ids ids => simp [regionLevel, choice]
  | all =>
    cases levels : q.level with
    | all => simp [regionLevel, choice, levels]
    | levels numbers =>
      simp only [regionLevel, choice, levels, Option.some.injEq, forall_eq', accepts_oneOf,
        List.mem_map, SortedSet.mem_toList, LevelChoice.levels.injEq, forall_const]
      constructor
      · rintro ⟨_, ⟨level, listed, rfl⟩, text⟩
        exact ⟨level, listed, text⟩
      · rintro ⟨level, listed, text⟩
        exact ⟨_, ⟨level, listed, rfl⟩, text⟩

theorem accepts_time {q : Query} {f : Fact} :
    (∀ g, time q = some g → accepts f g = true) ↔ q.time.Holds f := by
  cases choice : q.time with
  | all => simp [time, choice, TimeChoice.Holds]
  | last => simp [time, choice, TimeChoice.Holds]
  | year y => simp [time, choice, TimeChoice.Holds, accepts_term]
  | range low high => simp [time, choice, TimeChoice.Holds, accepts_range]

theorem accepts_parent {q : Query} {f : Fact} :
    (∀ g, parent q = some g → accepts f g = true) ↔ ∀ start, q.parent = some start →
      ∃ id, f.fieldText? "region_id" = some id ∧ start.toList <+: id.toList := by
  cases choice : q.parent with
  | none => simp [parent, choice]
  | some start => simp [parent, choice, accepts_starts]

/-- The condition on the statistic only repeats what the cells say of it. -/
theorem accepts_statistic {q : Query} {f : Fact} :
    (∀ g, statistic q = some g → accepts f g = true) ↔ (q.data.statistics.entries ≠ [] →
      ∃ key ∈ q.data.statistics.keys, f.fieldText? "statistic" = some key) := by
  by_cases none : q.data.statistics.entries = []
  · simp [statistic, SortedMap.isEmpty, none]
  · simp [statistic, SortedMap.isEmpty, none, accepts_oneOf]

theorem accepts_conditions {q : Query} {f : Fact} :
    (∀ g ∈ conditions q, accepts f g = true) ↔ q.Admits f ∧ (q.data.statistics.entries ≠ [] →
      ∃ key ∈ q.data.statistics.keys, f.fieldText? "statistic" = some key) := by
  have members : (∀ g ∈ conditions q, accepts f g = true) ↔
      (∀ g, region q = some g → accepts f g = true) ∧
      (∀ g, statistic q = some g → accepts f g = true) ∧
      (∀ g, time q = some g → accepts f g = true) ∧
      (∀ g, regionLevel q = some g → accepts f g = true) ∧
      (∀ g, parent q = some g → accepts f g = true) := by
    simp only [conditions, List.mem_filterMap, List.mem_cons, List.not_mem_nil, or_false, id_eq,
      exists_eq_or_imp, exists_eq_left, or_imp, forall_and]
  rw [members, accepts_region, accepts_statistic, accepts_time, accepts_regionLevel, accepts_parent]
  constructor
  · rintro ⟨region, statistic, time, level, parent⟩
    exact ⟨⟨region, level, time, parent⟩, statistic⟩
  · rintro ⟨⟨region, level, time, parent⟩, statistic⟩
    exact ⟨region, statistic, time, level, parent⟩

theorem accepts_required {measure d : String} {values : SortedSet String} {f : Fact} :
    accepts f (required measure (d, values)) = true ↔
      (values.isEmpty = true → f.present (dimensionPath measure d) = true) ∧
      (values.isEmpty = false →
        ∃ value ∈ values, f.fieldText? (keywordPath measure d) = some value) := by
  cases empty : values.isEmpty with
  | true => simp [required, empty, accepts_present]
  | false => simp [required, empty, accepts_oneOf, SortedSet.mem_toList]

theorem mem_otherValues {m : Option Measure} {d value : String} {values : SortedSet String}
    (other : value ∈ otherValues m (d, values)) : values.isEmpty = false ∧ value ∉ values := by
  unfold otherValues at other
  split at other
  · simp at other
  · next listed =>
    split at other
    · simp only [List.mem_map, List.mem_filter, SortedSet.contains] at other
      obtain ⟨v, ⟨_, unselected⟩, rfl⟩ := other
      refine ⟨by simpa using listed, fun selected => ?_⟩
      rw [List.contains_iff_mem.2 selected] at unselected
      simp at unselected
    · simp at other

/-- A listed value is none of the others, so the group that excludes those excludes nothing that
the listed values admit. -/
theorem excludedValues_of_required {measure d : String} {m : Option Measure}
    {values : SortedSet String} {f : Fact} {g : Filter}
    (excluded : excludedValues measure m (d, values) = some g)
    (admitted : accepts f (required measure (d, values)) = true) : accepts f g = false := by
  unfold excludedValues at excluded
  split at excluded
  · simp at excluded
  · obtain rfl := Option.some.inj excluded
    cases accepted : accepts f (.terms (keywordPath measure d) (otherValues m (d, values))) with
    | false => rfl
    | true =>
      obtain ⟨other, member, isOther⟩ := accepts_terms.1 accepted
      obtain ⟨listed, unselected⟩ := mem_otherValues member
      obtain ⟨value, selected, isValue⟩ := (accepts_required.1 admitted).2 listed
      rw [isOther] at isValue
      obtain rfl := Option.some.inj isValue
      contradiction

theorem accepts_excludedDimensions {measure : String} {m : Option Measure} {b : Breakdown}
    {f : Fact} : (∀ g ∈ excludedDimensions measure m b, accepts f g = false) ↔
      ∀ n, m = some n → ∀ d, n.dimensions.contains d = true → b.contains d = false →
        f.present (dimensionPath measure d) = false := by
  cases m with
  | none => simp [excludedDimensions]
  | some n =>
    simp only [excludedDimensions, List.mem_map, List.mem_filter, Option.some.injEq, forall_eq']
    constructor
    · intro absent d known unselected
      rw [← accepts_present]
      exact absent _ ⟨d, ⟨SortedMap.mem_keys_iff.2 known, by simp [unselected]⟩, rfl⟩
    · rintro absent _ ⟨d, ⟨known, unselected⟩, rfl⟩
      rw [accepts_present]
      exact absent d (SortedMap.mem_keys_iff.1 known) (by simpa using unselected)

theorem accepts_cell {c : Catalog} {statistic measure : String} {b : Breakdown} {f : Fact} :
    accepts f (cell c statistic (measure, b)) = true ↔
      f.present measure = true ∧
      (∀ d values, b.find? d = some values → accepts f (required measure (d, values)) = true) ∧
      (∀ m, c.measure? statistic measure = some m → ∀ d, m.dimensions.contains d = true →
        b.contains d = false → f.present (dimensionPath measure d) = false) := by
  simp only [cell, accepts_bool, List.mem_cons, List.mem_map, List.mem_append, List.mem_filterMap,
    or_imp, forall_and, forall_eq, accepts_present, accepts_excludedDimensions]
  constructor
  · rintro ⟨⟨measured, admitted⟩, _, others⟩
    refine ⟨measured, fun d values found => ?_, others⟩
    exact admitted _ ⟨_, SortedMap.find?_eq_some_iff.1 found, rfl⟩
  · rintro ⟨measured, admitted, others⟩
    refine ⟨⟨measured, ?_⟩, ?_, others⟩
    · rintro _ ⟨part, member, rfl⟩
      exact admitted part.1 part.2 (SortedMap.find?_eq_some_iff.2 member)
    · rintro g ⟨part, member, excluded⟩
      exact excludedValues_of_required excluded
        (admitted part.1 part.2 (SortedMap.find?_eq_some_iff.2 member))

/-- The clause of a measure, with that of its statistic, accepts the facts in the measure's cell. -/
theorem accepts_cell_iff_inCell {c : Catalog} {statistic measure : String} {b : Breakdown}
    {f : Fact} (here : f.fieldText? "statistic" = some statistic) :
    accepts f (cell c statistic (measure, b)) = true ↔ f.InCell c statistic measure b := by
  rw [accepts_cell]
  constructor
  · rintro ⟨measured, required, others⟩
    exact ⟨⟨fun d values found => (accepts_required.1 (required d values found)).1,
      fun d values found => (accepts_required.1 (required d values found)).2, others⟩, here, measured⟩
  · intro inside
    exact ⟨inside.measured, fun d values found =>
      accepts_required.2 ⟨inside.broken d values found, inside.listed d values found⟩,
      inside.others⟩

theorem accepts_cells {c : Catalog} {statistic : String} {choice : MeasureChoice} {f : Fact}
    (some : choice.entries ≠ []) :
    accepts f (cells c (statistic, choice)) = true ↔
      ∃ measure b, (measure, b) ∈ choice.entries ∧ f.InCell c statistic measure b := by
  have alternatives : choice.entries.map (cell c statistic) ≠ [] := by simpa using some
  simp only [cells, accepts_all, List.mem_cons, List.not_mem_nil, or_false, forall_eq_or_imp,
    forall_eq, accepts_term, accepts_any alternatives, List.mem_map]
  constructor
  · rintro ⟨here, _, ⟨⟨measure, b⟩, member, rfl⟩, accepted⟩
    exact ⟨measure, b, member, (accepts_cell_iff_inCell here).1 accepted⟩
  · rintro ⟨measure, b, member, inside⟩
    exact ⟨inside.kind, _, ⟨(measure, b), member, rfl⟩,
      (accepts_cell_iff_inCell inside.kind).2 inside⟩

/-- For a selection that asks for something, the filter means the conditions and the cells. -/
theorem accepts_ofQuery {c : Catalog} {q : Query} {f : Fact} (some : q.data.Substantial) :
    accepts f (ofQuery c q) = true ↔ q.Admits f ∧ ∃ statistic measure b,
      q.data.measure? statistic measure = Option.some b ∧ f.InCell c statistic measure b := by
  have alternatives : q.data.statistics.entries.map (cells c) ≠ [] := by simpa using some.statistics
  have alternative : accepts f (any (q.data.statistics.entries.map (cells c))) = true ↔
      ∃ statistic measure b, q.data.measure? statistic measure = Option.some b ∧
        f.InCell c statistic measure b := by
    rw [accepts_any alternatives]
    simp only [List.mem_map, Selection.measure?_eq_some_iff]
    constructor
    · rintro ⟨_, ⟨⟨statistic, choice⟩, member, rfl⟩, accepted⟩
      obtain ⟨measure, b, inner, inside⟩ := (accepts_cells (some.measures _ member)).1 accepted
      exact ⟨statistic, measure, b, ⟨choice, member, inner⟩, inside⟩
    · rintro ⟨statistic, measure, b, ⟨choice, member, inner⟩, inside⟩
      exact ⟨_, ⟨(statistic, choice), member, rfl⟩,
        (accepts_cells (some.measures _ member)).2 ⟨measure, b, inner, inside⟩⟩
  rw [ofQuery, accepts_all]
  simp only [List.mem_append, List.mem_singleton, or_imp, forall_and, forall_eq]
  rw [accepts_conditions, alternative]
  constructor
  · rintro ⟨⟨admitted, _⟩, inside⟩
    exact ⟨admitted, inside⟩
  · rintro ⟨admitted, statistic, measure, b, selected, inside⟩
    refine ⟨⟨admitted, fun _ => ⟨statistic, ?_, inside.kind⟩⟩, statistic, measure, b, selected,
      inside⟩
    obtain ⟨choice, member, _⟩ := Selection.measure?_eq_some_iff.1 selected
    exact List.mem_map.2 ⟨_, member, rfl⟩

/-- A fact passes the filter of a query that was read exactly if it meets the query's conditions and
lies in a selected cell. -/
theorem accepts_iff_of_read {c : Catalog} {text : String} {q : Query} {f : Fact}
    (read : Query.read text = .ok q) :
    accepts f (ofQuery c q) = true ↔ q.Admits f ∧ ∃ statistic measure b,
      q.data.measure? statistic measure = some b ∧ f.InCell c statistic measure b :=
  accepts_ofQuery (Query.substantial_of_read read)

end Filter

/-! A population counted by sex and nationality, one observation of it, and a query that finds it. -/
namespace Sample

def catalog : Catalog := ⟨"Regionalstatistik", .ofList [("12411", {
  key := "12411"
  name := "Bevölkerungsstand"
  description := none
  measures := .ofList [("BEVSTD", {
    key := "BEVSTD"
    name := "Bevölkerung"
    levels := none
    dimensions := .ofList [
      ("GES", ⟨"GES", "Geschlecht", [⟨"GESM", "männlich"⟩, ⟨"GESW", "weiblich"⟩]⟩),
      ("NAT", ⟨"NAT", "Nationalität", [⟨"NATA", "Ausländer"⟩]⟩)] })] })]⟩

def women : Fact := .ofList [
  ("BEVSTD", .byte 4),
  ("path", .object (.ofList [("BEVSTD", .object (.ofList [("GES", .string "GESW")]))])),
  ("region_id", .string "05111"),
  ("statistic", .string "12411"),
  ("year", .string "2005")]

def text : String := "data=12411:BEVSTD(GES:GESW)&region=05111,11&time=:2010&parent=05"

def query : Query where
  data := ⟨.ofList [("12411", .ofList [("BEVSTD", .ofList [("GES", .ofList ["GESW"])])])]⟩
  delimiter := .comma
  timeField := .year
  format := .csv
  labels := .id
  layout := .long
  level := .levels (.ofList [1])
  parent := some "05"
  region := .ids (.ofList ["05111", "11"])
  sort := .time
  time := .range none (some 2010)
  source := text

end Sample

theorem Filter.accepts_women_in_cell :
    Query.read Sample.text = .ok Sample.query ∧ Sample.query.Admits Sample.women ∧
      ∃ statistic measure b, Sample.query.data.measure? statistic measure = some b ∧
        Sample.women.InCell Sample.catalog statistic measure b := by
  have read : Query.read Sample.text = .ok Sample.query := by decide +kernel
  have accepted : accepts Sample.women (ofQuery Sample.catalog Sample.query) = true := by
    decide +kernel
  exact ⟨read, (accepts_iff_of_read read).1 accepted⟩

end RegionalTables
