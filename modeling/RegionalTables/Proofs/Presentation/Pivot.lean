import RegionalTables.Proofs.BaseTable.Complete
import RegionalTables.Proofs.Presentation.Layout

/-! The wide layouts as pivots of the base table. Rows and pivot columns are those the observations
call for, each once, and a cell is told by the first observation at its place. A place has no row and
column of its own in the two layouts, so they show the same at it. -/
namespace RegionalTables

/-- What an observation is of: a measure broken down, in a region, at a time. -/
structure Place where
  statistic : String
  measure : String
  dimensions : List (String × String)
  region : String
  time : String
  deriving DecidableEq

def Observation.place (o : Observation) : Place :=
  ⟨o.statistic, o.measure, o.dimensions.entries, o.region, o.time⟩

/-- The value of the first observation at a place, coerced. -/
def BaseTable.valueAt (t : BaseTable) (place : Place) : Cell :=
  ((t.observations.find? (·.place == place)).map (·.value.coerce)).getD .missing

theorem BaseTable.valueAt_of_absent {t : BaseTable} {place : Place}
    (absent : ∀ o ∈ t.observations, o.place ≠ place) : t.valueAt place = .missing := by
  have none : t.observations.find? (·.place == place) = none :=
    List.find?_eq_none.2 fun o member same => absent o member (beq_iff_eq.1 same)
  rw [valueAt, none]
  rfl

namespace Layout

/-- The label of the row a place is shown in. -/
def label (layout : Layout) (place : Place) : String :=
  match layout with
  | .long | .region => place.region
  | .time => place.time

/-- The column a place is shown in. -/
def pivot (layout : Layout) (place : Place) : PivotKey :=
  ⟨place.statistic, place.measure, place.dimensions,
    match layout with
    | .long | .region => place.time
    | .time => place.region⟩

/-- The place shown in a row and a column. -/
def place (layout : Layout) (label : String) (key : PivotKey) : Place :=
  match layout with
  | .long | .region => ⟨key.statistic, key.measure, key.dimensions, label, key.suffix⟩
  | .time => ⟨key.statistic, key.measure, key.dimensions, key.suffix, label⟩

theorem place_label_pivot (layout : Layout) (place : Place) :
    layout.place (layout.label place) (layout.pivot place) = place := by
  cases layout <;> rfl

theorem eq_place_iff {layout : Layout} {label : String} {key : PivotKey} {place : Place} :
    place = layout.place label key ↔ layout.pivot place = key ∧ layout.label place = label := by
  constructor
  · rintro rfl
    cases layout <;> exact ⟨rfl, rfl⟩
  · rintro ⟨rfl, rfl⟩
    exact (layout.place_label_pivot place).symm

end Layout

def ColumnKey.pivot? : ColumnKey → Option PivotKey
  | .pivot key => some key
  | _ => none

namespace Frame

def labels (f : Frame) : List Cell := (f.index.map (·.cells)).getD []

def pivots (f : Frame) : List PivotKey := f.columns.filterMap (·.key.pivot?)

theorem mem_pivots_iff {f : Frame} {key : PivotKey} :
    key ∈ f.pivots ↔ ∃ c ∈ f.columns, c.key = .pivot key := by
  simp only [pivots, List.mem_filterMap]
  refine exists_congr fun c => and_congr_right fun _ => ?_
  cases c.key <;> simp [ColumnKey.pivot?]

/-- What stands in the row with a label and the column of a pivot key. There is nothing where one of
them is absent. -/
def cellAt (f : Frame) (label : String) (key : PivotKey) : Cell :=
  ((f.columns.find? (·.key == .pivot key)).bind fun c =>
    (f.labels.idxOf? (.text label)).map c.cell).getD .missing

/-- The frame shows the observations of the table and nothing else, in rows with these labels. -/
structure Pivots (f : Frame) (layout : Layout) (t : BaseTable) (labels : List String) : Prop where
  index : f.index.map (·.cells) = some (labels.map .text)
  labelsOnce : labels.Nodup
  labelled : ∀ label, label ∈ labels ↔ ∃ o ∈ t.observations, layout.label o.place = label
  pivotsOnce : f.pivots.Nodup
  pivoted : ∀ key, key ∈ f.pivots ↔ ∃ o ∈ t.observations, layout.pivot o.place = key
  cells : ∀ c ∈ f.columns, ∀ key, c.key = .pivot key →
    c.cells = labels.map fun label => t.valueAt (layout.place label key)

/-- Every place has its value, whether or not there is a row and a column to show it in. -/
theorem Pivots.cellAt {f : Frame} {layout : Layout} {t : BaseTable} {labels : List String}
    (pivots : f.Pivots layout t labels) (place : Place) :
    f.cellAt (layout.label place) (layout.pivot place) = t.valueAt place := by
  rw [Frame.cellAt]
  cases column : f.columns.find? (·.key == .pivot (layout.pivot place)) with
  | none =>
    refine (BaseTable.valueAt_of_absent fun o member same => ?_).symm
    have shown : layout.pivot place ∈ f.pivots := (pivots.pivoted _).2 ⟨o, member, by rw [same]⟩
    obtain ⟨c, own, key⟩ := mem_pivots_iff.1 shown
    exact List.find?_eq_none.1 column c own (beq_iff_eq.2 key)
  | some c =>
    have key : c.key = .pivot (layout.pivot place) := by simpa using List.find?_some column
    have cells := pivots.cells c (List.mem_of_find?_eq_some column) _ key
    have listed : f.labels = labels.map .text := by
      rw [Frame.labels, pivots.index, Option.getD_some]
    rw [listed]
    cases row : (labels.map Cell.text).idxOf? (.text (layout.label place)) with
    | none =>
      refine (BaseTable.valueAt_of_absent fun o member same => ?_).symm
      have shown : layout.label place ∈ labels := (pivots.labelled _).2 ⟨o, member, by rw [same]⟩
      exact List.idxOf?_eq_none_iff.1 row (List.mem_map_of_mem shown)
    | some i =>
      obtain ⟨bound, found, _⟩ := List.idxOf?_eq_some_iff.1 row
      have here : labels[i]? = some (layout.label place) := by
        rw [List.getElem_map] at found
        rw [← Cell.text.inj found]
        exact List.getElem?_eq_getElem _
      simp [Column.cell, cells, here, layout.place_label_pivot]

end Frame

namespace Presentation

variable {p : Presentation}

theorem label_place (wide : p.query.layout ≠ .long) (o : Observation) :
    p.query.layout.label o.place = p.indexOf o := by
  rw [indexOf, timeRows]
  cases layout : p.query.layout with
  | long => exact absurd layout wide
  | region | time => rfl

theorem pivot_place (wide : p.query.layout ≠ .long) (o : Observation) :
    p.query.layout.pivot o.place = p.pivotKey o := by
  rw [pivotKey, suffixOf, timeRows]
  cases layout : p.query.layout with
  | long => exact absurd layout wide
  | region | time => rfl

theorem wideValue_pivot (wide : p.query.layout ≠ .long) (t : BaseTable) (key : PivotKey)
    (label : String) : p.wideValue t.observations (.pivot key) label =
      t.valueAt (p.query.layout.place label key) := by
  have found : ∀ o, (p.pivotKey o == key && p.indexOf o == label) =
      (o.place == p.query.layout.place label key) := fun o => by
    rw [Bool.eq_iff_iff]
    simp only [Bool.and_eq_true, beq_iff_eq, Layout.eq_place_iff, label_place wide, pivot_place wide]
  simp only [wideValue, wideCell, found, BaseTable.valueAt]
  cases t.observations.find? (·.place == p.query.layout.place label key) <;> rfl

theorem filterMap_wideKeys (p : Presentation) (keys : List PivotKey) :
    (p.wideKeys keys).filterMap ColumnKey.pivot? = keys := by
  have fields : (p.wideFields.map ColumnKey.field).filterMap ColumnKey.pivot? = [] := by
    simp [ColumnKey.pivot?]
  rw [wideKeys, List.filterMap_append, fields, List.filterMap_map]
  exact List.filterMap_some

/-- A finished wide frame is the pivot of its table. -/
theorem pivots_frame (wide : p.query.layout ≠ .long) (t : BaseTable) :
    (p.frame t).Pivots p.query.layout t (p.indexValues t.observations) := by
  have pivots : (p.frame t).pivots.Perm (p.pivotKeys t.observations) := by
    have keys := p.keys_arranged (some (.field p.indexField)) (p.nodup_wideKeys t.observations)
    have listed := keys.filterMap ColumnKey.pivot?
    rw [filterMap_wideKeys, List.filterMap_map] at listed
    rw [frame_of_wide wide, Frame.pivots, Frame.fill, Frame.mapColumns, List.filterMap_map]
    exact listed
  constructor
  case index =>
    have label : p.wideValue t.observations (.field p.indexField) = .text := by
      funext x
      simp [wideValue, wideCell, p.indexField_ne, Cell.coerce]
    rw [frame_of_wide wide, ← label]
    rfl
  case labelsOnce => exact SortedSet.nodup _
  case labelled =>
    intro label
    simp [indexValues, SortedSet.mem_toList, label_place wide]
  case pivotsOnce => exact pivots.nodup_iff.2 (SortedSet.nodup _)
  case pivoted =>
    intro key
    rw [pivots.mem_iff]
    simp [pivotKeys, SortedSet.mem_toList, pivot_place wide]
  case cells =>
    intro c own key isPivot
    rw [frame_of_wide wide] at own
    obtain ⟨shape, _, rfl⟩ := List.mem_map.1 own
    have kept : shape.key = .pivot key := isPivot
    rw [Column.fill, kept]
    exact List.map_congr_left fun label _ => wideValue_pivot wide t key label

/-- The wide layouts show every observation's place once and nothing else, and are transposes of one
another. -/
theorem frames_pivot_and_transpose (t : BaseTable) :
    (∀ p : Presentation, p.query.layout ≠ .long →
      ∃ labels, (p.frame t).Pivots p.query.layout t labels) ∧
    ∀ p p' : Presentation, p.query.layout = .region → p'.query.layout = .time →
      ∀ statistic measure dimensions region time,
        (p.frame t).cellAt region ⟨statistic, measure, dimensions, time⟩ =
          (p'.frame t).cellAt time ⟨statistic, measure, dimensions, region⟩ := by
  refine ⟨fun p wide => ⟨_, pivots_frame wide t⟩, ?_⟩
  intro p p' byRegion byTime statistic measure dimensions region time
  let place : Place := ⟨statistic, measure, dimensions, region, time⟩
  have pivots := pivots_frame (p := p) (by simp [byRegion]) t
  have pivots' := pivots_frame (p := p') (by simp [byTime]) t
  rw [byRegion] at pivots
  rw [byTime] at pivots'
  exact (pivots.cellAt place).trans (pivots'.cellAt place).symm

end Presentation

namespace Sample

/-- Two counts for one place, of which the first counts, and one for a place far from it. -/
def counts : BaseTable where
  observations := [
    ⟨"05111", "2005", "12411", "BEVSTD", .float (.ofInt 4), .ofList [("GES", "GESW")]⟩,
    ⟨"05111", "2005", "12411", "BEVSTD", .integer 5, .ofList [("GES", "GESW")]⟩,
    ⟨"11", "2006", "12411", "BEVSTD", .integer 9, .empty⟩]
  cubes := []

def wide (layout : Layout) : Presentation :=
  ⟨catalog, names, { query with layout, labels := .both, sort := .value }⟩

end Sample

theorem Presentation.frames_of_counts :
    (Sample.wide .region).query.layout ≠ .long ∧ (Sample.wide .region).query.layout = .region ∧
      (Sample.wide .time).query.layout = .time ∧
      ((Sample.wide .region).frame Sample.counts).cellAt "05111"
        ⟨"12411", "BEVSTD", [("GES", "GESW")], "2005"⟩ = .integer 4 ∧
      ((Sample.wide .time).frame Sample.counts).cellAt "2005"
        ⟨"12411", "BEVSTD", [("GES", "GESW")], "05111"⟩ = .integer 4 := by
  have long : (Sample.wide .region).query.layout ≠ .long := by decide
  obtain ⟨pivots, transposed⟩ := frames_pivot_and_transpose Sample.counts
  obtain ⟨_, shown⟩ := pivots (Sample.wide .region) long
  let women : Place := ⟨"12411", "BEVSTD", [("GES", "GESW")], "05111", "2005"⟩
  have four : Sample.counts.valueAt women = .integer 4 := by decide +kernel
  have byRegion := (shown.cellAt women).trans four
  have same := transposed (Sample.wide .region) (Sample.wide .time) rfl rfl "12411" "BEVSTD"
    [("GES", "GESW")] "05111" "2005"
  exact ⟨long, rfl, rfl, byRegion, same.symm.trans byRegion⟩

end RegionalTables
