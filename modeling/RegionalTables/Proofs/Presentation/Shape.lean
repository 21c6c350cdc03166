import RegionalTables.Proofs.Frame.Rows
import RegionalTables.Proofs.Presentation.HeaderIds
import RegionalTables.Proofs.Text.Order

/-! The shape of a finished frame. Every column has a cell in every row, before the rows are sorted and
after, and the columns are those that the layout and the observations call for: the fields in their
fixed order, then all others by header. -/
namespace RegionalTables

namespace Frame

theorem length_eq_of_forall {f : Frame} {n : Nat} (some : f.all ≠ [])
    (each : ∀ c ∈ f.all, c.cells.length = n) : f.length = n := by
  obtain ⟨c, others, all⟩ := List.exists_cons_of_ne_nil some
  have first := each c (by simp [all])
  simp [length, all, first]

theorem rectangular_of_forall {f : Frame} {n : Nat} (each : ∀ c ∈ f.all, c.cells.length = n) :
    f.Rectangular := by
  intro c own
  rw [length_eq_of_forall (List.ne_nil_of_mem own) each]
  exact each c own

theorem rectangular_fill (cell : ColumnKey → α → Cell) (rows : List α) (f : Frame) :
    (f.fill cell rows).Rectangular := by
  have each : ∀ c ∈ (f.fill cell rows).all, c.cells.length = rows.length := by
    intro c own
    rw [all_fill] at own
    obtain ⟨d, _, rfl⟩ := List.mem_map.1 own
    exact List.length_map _
  exact rectangular_of_forall each

theorem Rectangular.map_cell_range {f : Frame} (rect : f.Rectangular) {c : Column} (own : c ∈ f.all) :
    (List.range f.length).map c.cell = c.cells := by
  refine List.ext_getElem? fun i => ?_
  by_cases inside : i < f.length
  · simp [inside, rect.getElem?_cells inside own]
  · have outside : c.cells.length ≤ i := by
      rw [rect c own]
      exact Nat.not_lt.1 inside
    simp [inside, outside]

/-- In this order of the rows every column has the cells it had, each once. -/
structure ReorderedBy (f : Frame) (order : List Nat) : Prop where
  places : order.Perm (List.range f.length)
  cells : ∀ c ∈ f.all, (c.permute order).cells.Perm c.cells

theorem Rectangular.reorderedBy {f : Frame} (rect : f.Rectangular) {order : List Nat}
    (places : order.Perm (List.range f.length)) : f.ReorderedBy order where
  places := places
  cells c own := by
    have cells := places.map c.cell
    rwa [rect.map_cell_range own] at cells

/-- Both kinds of text are written from cells that the columns have. -/
structure Written (f : Frame) : Prop where
  delimited : ∃ rows, f.records = f.headers :: rows ∧
    f.RowsAs (fun _ x text => text = x.text?.getD "") rows
  document : ∃ rows : List (List (String × Json.Value)), f.toValue = .object [
      ("schema", .array f.schema), ("data", .array (rows.map .object))] ∧
    f.RowsAs (fun c x member => member = (c.header, x.value)) rows

theorem Rectangular.written {f : Frame} (rect : f.Rectangular) : f.Written where
  delimited := by
    refine ⟨_, ?_, rect.rowsAs_map (g := fun _ x => x.text?.getD "") fun _ _ => rfl⟩
    simp [records, rows, row, Function.comp_def]
  document := by
    refine ⟨_, ?_, rect.rowsAs_map (g := fun c x => (c.header, x.value)) fun _ _ => rfl⟩
    rw [List.map_map]
    rfl

end Frame

namespace Presentation

variable (p : Presentation) (t : BaseTable)

/-- The field of the row labels, if there are any. -/
def labelField? : Option String :=
  match p.query.layout with
  | .long => none
  | .region => some Field.regionId
  | .time => some p.timeField

/-- The fields whose columns come first, in this order. -/
def firstFields : List String :=
  let names := if p.query.labels = .id then [] else [Field.regionName]
  match p.query.layout with
  | .long => Field.regionId :: names ++ [p.timeField, Field.measure, Field.value]
  | .region => names
  | .time => []

/-- A column that there must be after these. -/
def CallsFor : ColumnKey → Prop
  | .field name =>
    p.query.layout = .long ∧ name = Field.statistic ∧ 1 < p.query.data.statistics.size
  | .dimension key => p.query.layout = .long ∧ ∃ o ∈ t.observations,
    o.statistic = key.statistic ∧ o.measure = key.measure ∧ key.dimension ∈ o.dimensions.keys
  | .pivot key => p.query.layout ≠ .long ∧ ∃ o ∈ t.observations, p.query.layout.pivot o.place = key

/-- A frame has the columns that are called for and no other ones, each once and in order. -/
structure HasColumns (f : Frame) (first rest : List Column) : Prop where
  columns : f.columns = first ++ rest
  index : f.index.map (·.key) = p.labelField?.map .field
  fields : first.map (·.key) = p.firstFields.map .field
  others : ∀ key, key ∈ rest.map (·.key) ↔ p.CallsFor t key
  once : (f.all.map (·.key)).Nodup
  byHeader : rest.Pairwise fun c d => ¬ Text.bytesBelow d.header c.header

theorem rowOrder_perm (f : Frame) : (p.rowOrder f).Perm (List.range f.length) := by
  rw [rowOrder]
  cases f.index with
  | none => exact sortOn_perm _ _
  | some index => exact (sortOn_perm _ _).trans (sortOn_perm _ _)

theorem rectangular_unsorted : (p.unsorted t).Rectangular := by
  rw [unsorted, layOut]
  cases p.query.layout with
  | long =>
    rw [longFrame_eq, labelled_fill, Frame.mapCells_fill]
    exact Frame.rectangular_fill _ _ _
  | region | time =>
    rw [wideFrame_eq, labelled_fill, Frame.mapCells_fill]
    exact Frame.rectangular_fill _ _ _

/-- The fields that have a column, with the index left out. -/
def columnFields : List String :=
  match p.query.layout with
  | .long => p.longFields
  | .region | .time => p.wideFields

theorem key_index_unsorted : (p.unsorted t).index.map (·.key) = p.labelField?.map .field := by
  rw [unsorted, layOut, labelField?]
  cases layout : p.query.layout with
  | long => rfl
  | region =>
    have field : p.indexField = Field.regionId := by simp [indexField, timeRows, layout]
    rw [← field]
    rfl
  | time =>
    have field : p.indexField = p.timeField := by simp [indexField, timeRows, layout]
    rw [← field]
    rfl

theorem keys_columns_unsorted : (p.unsorted t).columns.map (·.key) =
    p.columnFields.map .field ++ p.dataKeys t.observations := by
  have kept : (p.unsorted t).columns.map (·.key) = (p.layOut t).columns.map (·.key) := by
    rw [← p.keys_labelled (p.layOut t), unsorted, Frame.mapCells, Frame.mapColumns, List.map_map]
    rfl
  rw [kept, layOut, columnFields, dataKeys]
  cases p.query.layout with
  | long =>
    rw [longFrame_eq, Frame.fill_ofKeys, longKeys, List.map_map]
    exact List.map_id _
  | region | time =>
    rw [wideFrame_eq, Frame.fill_ofKeys, wideKeys, List.map_map]
    exact List.map_id _

theorem field_mem_keys_iff {name : String} :
    .field name ∈ p.columnFields.map ColumnKey.field ++ p.dataKeys t.observations ↔
      name ∈ p.columnFields := by
  have notData : .field name ∉ p.dataKeys t.observations := by
    intro own
    obtain ⟨o, _, isData⟩ := statistic?_of_mem_dataKeys own
    cases isData
  simp [notData]

theorem filter_leadingFields :
    p.leadingFields.filter (fun name => name ∈ p.columnFields) = p.firstFields := by
  -- both sides are lists of field names, settled by the layout, the labels and the kind of time
  cases layout : p.query.layout <;> by_cases ids : p.query.labels = .id <;>
    cases time : p.query.timeField <;>
    simp [leadingFields, columnFields, firstFields, longFields, wideFields, showsNames, timeRows,
      timeField, layout, ids, time, Field.regionId, Field.regionName, Field.statistic, Field.measure,
      Field.value, TimeField.name]

theorem mem_columnFields_iff {name : String} : name ∈ p.columnFields ↔ name ∈ p.firstFields ∨
    p.query.layout = .long ∧ name = Field.statistic ∧ 1 < p.query.data.statistics.size := by
  rw [columnFields, firstFields, longFields, wideFields, showsNames, timeRows]
  cases layout : p.query.layout with
  | long =>
    by_cases ids : p.query.labels = .id <;> by_cases several : 1 < p.query.data.statistics.size <;>
      simp [ids, several] <;> grind
  | region => by_cases ids : p.query.labels = .id <;> simp [ids]
  | time => simp

theorem statistic_not_mem_leadingFields : Field.statistic ∉ p.leadingFields := by
  rw [leadingFields, timeField]
  cases p.query.layout <;> cases p.query.timeField <;> decide

theorem dimension_mem_dataKeys_iff {key : DimensionKey} :
    .dimension key ∈ p.dataKeys t.observations ↔ p.CallsFor t (.dimension key) := by
  rw [dataKeys, CallsFor]
  cases p.query.layout with
  | long =>
    simp only [List.mem_map, ColumnKey.dimension.injEq, exists_eq_right, dimensionKeys,
      SortedSet.mem_toList, SortedSet.mem_ofList, List.mem_flatMap, Observation.dimensionKeys, true_and]
    refine exists_congr fun o => and_congr_right fun _ => ?_
    constructor
    · rintro ⟨_, own, rfl⟩
      exact ⟨rfl, rfl, own⟩
    · rintro ⟨statistic, measure, own⟩
      exact ⟨_, own, by rw [statistic, measure]⟩
  | region | time => simp

theorem pivot_mem_dataKeys_iff {key : PivotKey} :
    .pivot key ∈ p.dataKeys t.observations ↔ p.CallsFor t (.pivot key) := by
  rw [CallsFor]
  cases layout : p.query.layout with
  | long => simp [dataKeys, layout]
  | region | time =>
    have wide : p.query.layout ≠ .long := by simp [layout]
    simp [dataKeys_of_wide wide, pivotKeys, SortedSet.mem_toList, ← layout, pivot_place wide, wide]

theorem mem_keys_others {fields : List String} {columns : List Column} {key : ColumnKey} :
    key ∈ (columns.filter fun c => fields.all fun name => !c.isField name).map (·.key) ↔
      key ∈ columns.map (·.key) ∧ key ∉ fields.map .field := by
  simp only [List.mem_map, List.mem_filter, List.all_eq_true, Column.isField, Bool.not_eq_true',
    beq_eq_false_iff_ne]
  constructor
  · rintro ⟨c, ⟨own, other⟩, rfl⟩
    refine ⟨⟨c, own, rfl⟩, ?_⟩
    rintro ⟨name, listed, same⟩
    exact other name listed same.symm
  · rintro ⟨⟨c, own, rfl⟩, other⟩
    exact ⟨c, ⟨own, fun name listed same => other ⟨name, listed, same.symm⟩⟩, rfl⟩

/-- The columns that are not moved to the front are those that are called for. -/
theorem callsFor_iff (key : ColumnKey) : p.CallsFor t key ↔
    key ∈ p.columnFields.map .field ++ p.dataKeys t.observations ∧
      key ∉ p.leadingFields.map .field := by
  cases key with
  | field name =>
    have first : name ∈ p.firstFields → name ∈ p.leadingFields := by
      rw [← filter_leadingFields]
      exact List.mem_of_mem_filter
    have unlike : name = Field.statistic → name ∉ p.leadingFields := by
      rintro rfl
      exact p.statistic_not_mem_leadingFields
    rw [field_mem_keys_iff, mem_columnFields_iff, List.mem_map_of_injective fun _ _ => ColumnKey.field.inj]
    constructor
    · intro called
      exact ⟨.inr called, unlike called.2.1⟩
    · rintro ⟨front | called, later⟩
      · exact absurd (first front) later
      · exact called
  | dimension key => simp [← dimension_mem_dataKeys_iff]
  | pivot key => simp [← pivot_mem_dataKeys_iff]

theorem length_cells_frame : ∀ c ∈ (p.frame t).all,
    c.cells.length = (p.rowOrder (p.unsorted t)).length := by
  intro c own
  have moved := (p.all_frame_perm t).mem_iff.1 own
  rw [Frame.permute, Frame.all_mapColumns] at moved
  obtain ⟨d, _, rfl⟩ := List.mem_map.1 moved
  exact List.length_map _

theorem exists_hasColumns : ∃ first rest, p.HasColumns t (p.frame t) first rest := by
  let f := (p.unsorted t).permute (p.rowOrder (p.unsorted t))
  have keys : f.columns.map (·.key) = p.columnFields.map .field ++ p.dataKeys t.observations :=
    (Frame.keys_permute _ _).trans (p.keys_columns_unsorted t)
  refine ⟨p.leadingFields.filterMap f.column?,
    sortOn (·.header) (f.columns.filter fun c => p.leadingFields.all fun name => !c.isField name), ?_⟩
  constructor
  case columns => rfl
  case index =>
    rw [← p.key_index_unsorted t]
    simp [frame, withArrangedColumns, sorted, unsorted, Frame.permute, Frame.mapColumns, Column.permute,
      Function.comp_def]
  case fields =>
    simp only [keys_found, keys, field_mem_keys_iff, filter_leadingFields]
  case others =>
    intro key
    rw [((sortOn_perm _ _).map _).mem_iff, mem_keys_others, keys, callsFor_iff]
  case once =>
    rw [((p.all_frame_perm t).map _).nodup_iff, Frame.keys_all_permute, keys_unsorted]
    exact p.nodup_columnKeys t.observations
  case byHeader =>
    exact (pairwise_sortOn Column.header _).imp Text.not_bytesBelow_of_isLE

/-- A finished frame is rectangular, so its texts are written from cells that the columns have, and the
columns are those that are called for. It is so before the rows are sorted, and sorting them takes every
row once. -/
theorem frame_shape (p : Presentation) (t : BaseTable) :
    (p.frame t).Rectangular ∧ (p.frame t).Written ∧
    ((p.unsorted t).Rectangular ∧ (p.unsorted t).ReorderedBy (p.rowOrder (p.unsorted t)) ∧
      p.frame t = p.withArrangedColumns ((p.unsorted t).permute (p.rowOrder (p.unsorted t)))) ∧
    ∃ first rest, p.HasColumns t (p.frame t) first rest := by
  have rect := Frame.rectangular_of_forall (p.length_cells_frame t)
  have before := p.rectangular_unsorted t
  have sorting := before.reorderedBy (p.rowOrder_perm (p.unsorted t))
  exact ⟨rect, rect.written, ⟨before, sorting, rfl⟩, p.exists_hasColumns t⟩

/-- An empty table keeps the columns of its fields. -/
example : ((Sample.wide .region).frame ⟨[], []⟩).headers = ["ID_Region", "Region"] ∧
    ((Sample.wide .time).frame ⟨[], []⟩).headers = ["Jahr"] := by
  decide +kernel

end Presentation

end RegionalTables
