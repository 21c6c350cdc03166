import RegionalTables.Proofs.BaseTable.Complete
import RegionalTables.Proofs.Catalog.View
import RegionalTables.Proofs.Presentation.Layout

/-! Tables shown with a view. A presentation looks up names for what its rows mention and for nothing
else, and the rows made with a view mention only what the view has kept whole; so the view serves for
them as well as the catalog it was taken from. -/
namespace RegionalTables

/-- The catalogs have the same names for all that the observation mentions. -/
structure Observation.NamedAlike (o : Observation) (c c' : Catalog) : Prop where
  statistic : (c.statistic? o.statistic).map (·.name) = (c'.statistic? o.statistic).map (·.name)
  measure : (c.measure? o.statistic o.measure).map (·.name) =
    (c'.measure? o.statistic o.measure).map (·.name)
  dimension : ∀ key ∈ o.dimensions.keys,
    c.dimension? o.statistic o.measure key = c'.dimension? o.statistic o.measure key

namespace Presentation

variable {c c' : Catalog} {names : RegionNames} {q : Query} {l : List Observation}

/-- The key of a column that rows call for. -/
def Mentioned (l : List Observation) : ColumnKey → Prop
  | .field _ => True
  | .dimension key => ∃ o ∈ l, key.statistic = o.statistic ∧ key.measure = o.measure ∧
    key.dimension ∈ o.dimensions.keys
  | .pivot key => ∃ o ∈ l, key.statistic = o.statistic ∧ key.measure = o.measure ∧
    key.dimensions = o.dimensions.entries

theorem header_congr (alike : ∀ o ∈ l, o.NamedAlike c c') {key : ColumnKey}
    (mentioned : Mentioned l key) :
    header ⟨c, names, q⟩ key = header ⟨c', names, q⟩ key := by
  cases key with
  | field name => rfl
  | dimension key =>
    obtain ⟨o, own, statistic, measure, listed⟩ := mentioned
    have same := alike o own
    simp only [header, dimensionHeader, measureName, dimensionName, label, statistic, measure,
      same.measure, same.dimension _ listed]
  | pivot key =>
    obtain ⟨o, own, statistic, measure, dimensions⟩ := mentioned
    have same := alike o own
    have values : ∀ e ∈ key.dimensions,
        valueName ⟨c, names, q⟩ ⟨o.statistic, o.measure, e.1⟩ e.2 =
          valueName ⟨c', names, q⟩ ⟨o.statistic, o.measure, e.1⟩ e.2 := by
      intro e listed
      have key : e.1 ∈ o.dimensions.keys := List.mem_map_of_mem (dimensions ▸ listed)
      simp only [valueName, same.dimension _ key]
    simp only [header, pivotName, measureName, statistic, measure, same.measure]
    rw [List.map_congr_left values]
    rfl

theorem labelled_congr (alike : ∀ o ∈ l, o.NamedAlike c c') {f : Frame}
    (mentioned : ∀ column ∈ f.all, Mentioned l column.key) :
    labelled ⟨c, names, q⟩ f = labelled ⟨c', names, q⟩ f := by
  have headers : f.mapColumns (withHeader ⟨c, names, q⟩) =
      f.mapColumns (withHeader ⟨c', names, q⟩) := Frame.mapColumns_congr fun column own => by
    rw [withHeader, header_congr alike (mentioned column own), withHeader]
  simp only [labelled, headers]

/-! The layouts. -/

theorem mentioned_of_dimensionKeys {key : DimensionKey} (listed : key ∈ dimensionKeys l) :
    Mentioned l (.dimension key) := by
  obtain ⟨o, own, inside⟩ := List.mem_flatMap.1 (SortedSet.mem_ofList.1 listed)
  obtain ⟨d, dimension, rfl⟩ := List.mem_map.1 inside
  exact ⟨o, own, rfl, rfl, dimension⟩

theorem mentioned_of_pivotKeys {p : Presentation} {key : PivotKey} (listed : key ∈ p.pivotKeys l) :
    Mentioned l (.pivot key) := by
  obtain ⟨o, own, rfl⟩ := List.mem_map.1 (SortedSet.mem_ofList.1 listed)
  exact ⟨o, own, rfl, rfl, rfl⟩

theorem longCell_congr {o : Observation} (alike : o.NamedAlike c c') (key : ColumnKey) :
    longCell ⟨c, names, q⟩ key o = longCell ⟨c', names, q⟩ key o := by
  cases key with
  | field name =>
    simp only [longCell, statisticLabel, statisticName, measureLabel, measureName, label,
      alike.statistic, alike.measure]
  | dimension key =>
    simp only [longCell, dimensionCell]
    split
    · next own =>
      obtain ⟨statistic, measure⟩ := own
      cases found : o.dimensions.find? key.dimension with
      | none => rfl
      | some v =>
        have listed : key.dimension ∈ o.dimensions.keys :=
          SortedMap.mem_keys_iff.2 (SortedMap.contains_iff.2 ⟨v, found⟩)
        have same := alike.dimension _ listed
        simp only [valueLabel, valueName, label, ← statistic, ← measure, same]
    · rfl
  | pivot key => rfl

theorem layOut_congr {t : BaseTable} (alike : ∀ o ∈ t.observations, o.NamedAlike c c') :
    layOut ⟨c, names, q⟩ t = layOut ⟨c', names, q⟩ t := by
  simp only [layOut]
  cases q.layout with
  | long =>
    simp only [longFrame_eq]
    exact Frame.fill_congr fun column _ =>
      List.map_congr_left fun o own => longCell_congr (alike o own) column.key
  | region | time => rfl

theorem key_of_fill_ofKeys {index : Option ColumnKey} {keys : List ColumnKey}
    {cell : ColumnKey → α → Cell} {rows : List α} {column : Column}
    (own : column ∈ ((Frame.ofKeys index keys).fill cell rows).all) :
    column.key ∈ index.toList ++ keys := by
  rw [Frame.fill_ofKeys, Frame.all, List.mem_append] at own
  rcases own with label | other
  · obtain ⟨key, given, rfl⟩ := Option.map_eq_some_iff.1 (Option.mem_toList.1 label)
    exact List.mem_append_left _ (Option.mem_toList.2 given)
  · obtain ⟨key, listed, rfl⟩ := List.mem_map.1 other
    exact List.mem_append_right _ listed

/-- Fields are mentioned by any rows. -/
theorem mentioned_of_fields {fields : List String} {others : List α} {toKey : α → ColumnKey}
    (rest : ∀ a ∈ others, Mentioned l (toKey a)) {key : ColumnKey}
    (listed : key ∈ fields.map .field ++ others.map toKey) : Mentioned l key := by
  rcases List.mem_append.1 listed with field | other
  · obtain ⟨name, _, rfl⟩ := List.mem_map.1 field
    exact trivial
  · obtain ⟨a, member, rfl⟩ := List.mem_map.1 other
    exact rest a member

/-- Every column of a layout is a field or called for by the rows. -/
theorem mentioned_of_layOut {p : Presentation} {t : BaseTable} {column : Column}
    (own : column ∈ (p.layOut t).all) : Mentioned t.observations column.key := by
  have wide (own : column ∈ (p.wideFrame t.observations).all) :
      Mentioned t.observations column.key := by
    rw [wideFrame_eq] at own
    rcases List.mem_cons.1 (key_of_fill_ofKeys own) with index | listed
    · rw [index]
      exact trivial
    · exact mentioned_of_fields (fun _ => mentioned_of_pivotKeys) listed
  rw [layOut] at own
  split at own
  · rw [longFrame_eq] at own
    exact mentioned_of_fields (fun _ => mentioned_of_dimensionKeys) (key_of_fill_ofKeys own)
  · exact wide own
  · exact wide own

/-- Catalogs that name alike all that a table mentions show it alike. -/
theorem frame_congr {t : BaseTable} (alike : ∀ o ∈ t.observations, o.NamedAlike c c') :
    frame ⟨c, names, q⟩ t = frame ⟨c', names, q⟩ t := by
  have shown : labelled ⟨c, names, q⟩ (layOut ⟨c, names, q⟩ t) =
      labelled ⟨c', names, q⟩ (layOut ⟨c', names, q⟩ t) := by
    rw [← layOut_congr alike]
    exact labelled_congr alike fun _ => mentioned_of_layOut
  simp only [frame, shown]
  rfl

end Presentation

/-! Rows made with a view. -/

theorem Catalog.namedAlike_of_view {c : Catalog} {s : Selection} {q : Query} {facts : List Fact}
    {o : Observation} (row : o ∈ (BaseTable.ofFacts (c.restrict s) q facts).observations) :
    o.NamedAlike (c.restrict s) c := by
  obtain ⟨m, known, f, _, _, made⟩ := BaseTable.exists_fact_of_mem row
  constructor
  case statistic =>
    obtain ⟨kept, found, _⟩ := Option.bind_eq_some_iff.1 known
    obtain ⟨whole, there, same⟩ := statistic_of_restrict found
    rw [found, there, Option.map_some, same, Option.map_some]
  case measure =>
    obtain ⟨whole, there, same⟩ := measure_of_restrict known
    rw [known, there, Option.map_some, same, Option.map_some]
  case dimension =>
    intro key listed
    obtain ⟨v, found⟩ := SortedMap.contains_iff.1 (SortedMap.mem_keys_iff.1 listed)
    rw [(BaseTable.measured_of_observation? made).2, SortedMap.find?_filterMap] at found
    obtain ⟨d, kept, _⟩ := Option.bind_eq_some_iff.1 found
    have viewed : (c.restrict s).dimension? o.statistic o.measure key = some d := by
      rw [dimension?, known]
      exact kept
    rw [viewed, dimension_of_restrict viewed]

/-- The view of a checked query is exactly what the query selects, and is its own view. The rows made
with the view of any query are shown with it as they are with the whole catalog, in every layout, with
every sort of label and in every format. -/
theorem Catalog.view_exact_and_interchangeable (c : Catalog) (names : RegionNames) :
    (∀ text q, c.parse names text = .ok q →
      c.IsView q.data (c.restrict q.data) ∧ (c.restrict q.data).restrict q.data = c.restrict q.data) ∧
    ∀ (q shown : Query) (facts : List Fact),
      Presentation.render ⟨c.restrict q.data, names, shown⟩ (.ofFacts (c.restrict q.data) q facts) =
        Presentation.render ⟨c, names, shown⟩ (.ofFacts (c.restrict q.data) q facts) ∧
      Presentation.renderAll ⟨c.restrict q.data, names, shown⟩
          (.ofFacts (c.restrict q.data) q facts) =
        Presentation.renderAll ⟨c, names, shown⟩ (.ofFacts (c.restrict q.data) q facts) := by
  constructor
  · intro text q parsed
    exact ⟨isView_of_check (parse_eq_ok_iff.1 parsed).2, c.restrict_restrict q.data⟩
  · intro q shown facts
    have frame : Presentation.frame ⟨c.restrict q.data, names, shown⟩
        (.ofFacts (c.restrict q.data) q facts) =
        Presentation.frame ⟨c, names, shown⟩ (.ofFacts (c.restrict q.data) q facts) :=
      Presentation.frame_congr fun _ => namedAlike_of_view
    simp only [Presentation.render, Presentation.renderAll, frame]
    exact ⟨rfl, rfl⟩

namespace Sample

/-- Another presentation of the women, by region and with names. -/
def namedByRegion : Query := { query with labels := .both, layout := .region, format := .json }

end Sample

theorem Catalog.view_of_women :
    Sample.catalog.parse Sample.names Sample.text = .ok Sample.query ∧
      Sample.catalog.IsView Sample.query.data (Sample.catalog.restrict Sample.query.data) ∧
      (Sample.catalog.restrict Sample.query.data).dimension? "12411" "BEVSTD" "GES" =
        some ⟨"GES", "Geschlecht", [⟨"GESM", "männlich"⟩, ⟨"GESW", "weiblich"⟩]⟩ ∧
      (Sample.catalog.restrict Sample.query.data).dimension? "12411" "BEVSTD" "NAT" = none ∧
      ∃ t : BaseTable, t.observations.length = 2 ∧
        Presentation.render ⟨Sample.catalog.restrict Sample.query.data, Sample.names,
          Sample.namedByRegion⟩ t =
        Presentation.render ⟨Sample.catalog, Sample.names, Sample.namedByRegion⟩ t := by
  have parsed : Sample.catalog.parse Sample.names Sample.text = .ok Sample.query := by decide +kernel
  have view := view_exact_and_interchangeable Sample.catalog Sample.names
  exact ⟨parsed, (view.1 _ _ parsed).1, by decide +kernel, by decide +kernel, _, by decide +kernel,
    (view.2 Sample.query Sample.namedByRegion [Sample.women, Sample.women]).1⟩

end RegionalTables
