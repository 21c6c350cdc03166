import RegionalTables.Proofs.Cell
import RegionalTables.Proofs.Presentation.Arrangement

/-! The layouts as frames made from rows: the long one from the observations, the wide ones from the
labels of their rows. The columns are told by the observations as a set, the cells by one row each. -/
namespace RegionalTables

/-- A frame of columns with these keys, without headers and cells. -/
def Frame.ofKeys (index : Option ColumnKey) (keys : List ColumnKey) : Frame :=
  ⟨index.map (⟨·, "", []⟩), keys.map (⟨·, "", []⟩)⟩

/-- A column without header whose cells are told by its key. -/
def Column.ofRows (cell : ColumnKey → α → Cell) (rows : List α) (key : ColumnKey) : Column :=
  ⟨key, "", rows.map (cell key)⟩

theorem Frame.fill_ofKeys (cell : ColumnKey → α → Cell) (rows : List α) (index : Option ColumnKey)
    (keys : List ColumnKey) : (ofKeys index keys).fill cell rows =
      ⟨index.map (.ofRows cell rows), keys.map (.ofRows cell rows)⟩ := by
  simp only [ofKeys, fill, mapColumns, Option.map_map, List.map_map]
  rfl

theorem Frame.keys_fill_ofKeys (cell : ColumnKey → α → Cell) (rows : List α) (index : Option ColumnKey)
    (keys : List ColumnKey) :
    ((ofKeys index keys).fill cell rows).all.map (·.key) = index.toList ++ keys := by
  rw [fill_ofKeys, all]
  cases index <;> simp [Column.ofRows, Function.comp_def]

/-- Fields are kept apart from columns of another kind. -/
theorem nodup_keys {fields : List String} {others : List α} {key : α → ColumnKey}
    (distinct : fields.Nodup) (distinct' : others.Nodup)
    (injective : ∀ a b, key a = key b → a = b) (apart : ∀ name a, .field name ≠ key a) :
    (fields.map ColumnKey.field ++ others.map key).Nodup := by
  rw [List.nodup_append]
  refine ⟨List.pairwise_map.2 (distinct.imp ?_), List.pairwise_map.2 (distinct'.imp ?_), ?_⟩
  · intro a b unlike same
    exact unlike (ColumnKey.field.inj same)
  · intro a b unlike same
    exact unlike (injective a b same)
  · intro _ field _ other same
    obtain ⟨name, _, rfl⟩ := List.mem_map.1 field
    obtain ⟨a, _, rfl⟩ := List.mem_map.1 other
    exact apart name a same

theorem Frame.keys_ofKeys (index : Option ColumnKey) (keys : List ColumnKey) :
    (ofKeys index keys).columns.map (·.key) = keys := by
  simp [ofKeys, Function.comp_def]

namespace Presentation

theorem keys_labelled_ofKeys (p : Presentation) (index : Option ColumnKey) (keys : List ColumnKey) :
    (p.labelled (.ofKeys index keys)).columns.map (·.key) = keys := by
  rw [keys_labelled, Frame.keys_ofKeys]

/-- Neither headers nor the order of columns take a key away or add one. -/
theorem keys_arranged (p : Presentation) (index : Option ColumnKey) {keys : List ColumnKey}
    (distinct : keys.Nodup) :
    ((p.withArrangedColumns (p.labelled (.ofKeys index keys))).columns.map (·.key)).Perm keys := by
  have labelled := p.keys_labelled_ofKeys index keys
  have arranged := p.withArrangedColumns_perm (f := p.labelled (.ofKeys index keys))
    (labelled.symm ▸ distinct)
  exact (arranged.map (·.key)).trans (.of_eq labelled)

/-- The fields of the long layout. -/
def longFields (p : Presentation) : List String :=
  [Field.regionId] ++ (if p.showsNames then [Field.regionName] else []) ++ [p.timeField] ++
  (if 1 < p.query.data.statistics.size then [Field.statistic] else []) ++
  [Field.measure, Field.value]

/-- The columns of the long layout, for observations with the given dimensions. -/
def longKeys (p : Presentation) (dimensions : List DimensionKey) : List ColumnKey :=
  p.longFields.map .field ++ dimensions.map .dimension

/-- What an observation has in a column of the long layout. -/
def longCell (p : Presentation) : ColumnKey → Observation → Cell
  | .field name, o =>
    if name = Field.regionId then .text o.region
    else if name = Field.regionName then .text (p.names.label o.region)
    else if name = Field.statistic then .text (p.statisticLabel o.statistic)
    else if name = Field.measure then .text (p.measureLabel o.statistic o.measure)
    else if name = Field.value then o.value
    else .text o.time
  | .dimension key, o => p.dimensionCell key o
  | .pivot _, _ => .missing

theorem longFrame_eq (p : Presentation) (l : List Observation) :
    p.longFrame l = (Frame.ofKeys none (p.longKeys (dimensionKeys l))).fill p.longCell l := by
  have time : p.timeField ≠ Field.regionId ∧ p.timeField ≠ Field.regionName ∧
      p.timeField ≠ Field.statistic ∧ p.timeField ≠ Field.measure ∧ p.timeField ≠ Field.value := by
    simp only [timeField]
    cases p.query.timeField <;> decide
  have times : Column.ofField p.timeField (l.map fun o => .text o.time) =
      .ofRows p.longCell l (.field p.timeField) := by
    simp [Column.ofField, Column.ofRows, longCell, time]
  simp only [Frame.fill_ofKeys, longFrame, longColumns, times, longKeys, longFields,
    List.map_append, apply_ite (List.map _), List.map_map]
  rfl

/-- The columns of the finished long frame, without cells. -/
def longShape (p : Presentation) (l : List Observation) : Frame :=
  p.labelled (Frame.ofKeys none (p.longKeys (dimensionKeys l)))

def longValue (p : Presentation) (key : ColumnKey) (o : Observation) : Cell :=
  (p.longCell key o).coerce

/-- A finished long frame is made from the sorted observations. -/
theorem frame_of_long {p : Presentation} (long : p.query.layout = .long) (t : BaseTable) :
    p.frame t = (p.withArrangedColumns (p.longShape t.observations)).fill p.longValue
      (p.sortRows p.longValue (p.longShape t.observations) t.observations) := by
  have some : (Frame.ofKeys none (p.longKeys (dimensionKeys t.observations))).all ≠ [] := by
    simp [Frame.ofKeys, Frame.all, longKeys, longFields]
  simp only [frame, layOut, long, longFrame_eq]
  exact finished_fill p some

theorem nodup_longFields (p : Presentation) : p.longFields.Nodup := by
  simp only [longFields, timeField]
  cases p.query.timeField <;> split <;> split <;> decide

theorem nodup_longKeys (p : Presentation) (l : List Observation) :
    (p.longKeys (dimensionKeys l)).Nodup :=
  nodup_keys p.nodup_longFields (SortedSet.nodup _) (fun _ _ => ColumnKey.dimension.inj) nofun

/-- The fields of a wide layout beside its index. -/
def wideFields (p : Presentation) : List String :=
  if p.showsNames && !p.timeRows then [Field.regionName] else []

/-- The columns of a wide layout beside its index. -/
def wideKeys (p : Presentation) (pivots : List PivotKey) : List ColumnKey :=
  p.wideFields.map .field ++ pivots.map .pivot

/-- What the row with a label has in a column of a wide layout. -/
def wideCell (p : Presentation) (l : List Observation) : ColumnKey → String → Cell
  | .field name, x => .text (if name = Field.regionName then p.names.label x else x)
  | .pivot key, x =>
    ((l.find? fun o => p.pivotKey o == key && p.indexOf o == x).map (·.value)).getD .missing
  | .dimension _, _ => .missing

theorem indexField_ne (p : Presentation) : p.indexField ≠ Field.regionName := by
  simp only [indexField, timeField]
  cases p.timeRows <;> cases p.query.timeField <;> decide

theorem wideFrame_eq (p : Presentation) (l : List Observation) :
    p.wideFrame l = (Frame.ofKeys (some (.field p.indexField)) (p.wideKeys (p.pivotKeys l))).fill
      (p.wideCell l) (p.indexValues l) := by
  have index : Column.ofField p.indexField ((p.indexValues l).map .text) =
      .ofRows (p.wideCell l) (p.indexValues l) (.field p.indexField) := by
    simp [Column.ofField, Column.ofRows, wideCell, p.indexField_ne]
  have pivots : (p.pivotKeys l).map (p.pivotColumn l (p.indexValues l)) =
      (p.pivotKeys l).map fun key => .ofRows (p.wideCell l) (p.indexValues l) (.pivot key) := by
    refine List.map_congr_left fun key _ => ?_
    simp only [pivotColumn, List.find?_filter, Bool.decide_and, Bool.decide_eq_true]
    rfl
  simp only [Frame.fill_ofKeys, wideFrame, index, pivots, wideKeys, wideFields, List.map_append,
    apply_ite (List.map _), List.map_map]
  rfl

/-- The columns of the finished wide frame, without cells. -/
def wideShape (p : Presentation) (l : List Observation) : Frame :=
  p.labelled (Frame.ofKeys (some (.field p.indexField)) (p.wideKeys (p.pivotKeys l)))

def wideValue (p : Presentation) (l : List Observation) (key : ColumnKey) (x : String) : Cell :=
  (p.wideCell l key x).coerce

/-- The labels of the rows are in order from the start, so sorting moves none of them. -/
theorem sortRows_indexValues (p : Presentation) (l : List Observation) :
    p.sortRows (p.wideValue l) (p.wideShape l) (p.indexValues l) = p.indexValues l := by
  have label : ∀ x, (p.wideValue l (.field p.indexField) x).sortKey = ⟨1, 0, x⟩ := by
    intro x
    simp [wideValue, wideCell, p.indexField_ne, Cell.coerce, Cell.sortKey]
  have order : (p.indexValues l).Pairwise fun x y =>
      (compare (⟨1, 0, x⟩ : Cell.SortKey) ⟨1, 0, y⟩).isLE = true :=
    (SortedSet.ascending _).imp fun {x y} before => by
      change (compare x y).isLE = true
      simp [before]
  simp only [sortRows, wideShape, labelled, Frame.mapColumns, Frame.ofKeys, Option.map_some,
    withHeader, label]
  exact sortOn_eq_of_perm (sortOn_perm _ _) order fun _ _ same => (Cell.SortKey.mk.inj same).2.2

/-- A finished wide frame is made from the labels of its rows. -/
theorem frame_of_wide {p : Presentation} (wide : p.query.layout ≠ .long) (t : BaseTable) :
    p.frame t = (p.withArrangedColumns (p.wideShape t.observations)).fill
      (p.wideValue t.observations) (p.indexValues t.observations) := by
  have some : (Frame.ofKeys (some (.field p.indexField))
      (p.wideKeys (p.pivotKeys t.observations))).all ≠ [] := by
    simp [Frame.ofKeys, Frame.all]
  have laidOut : p.layOut t = p.wideFrame t.observations := by
    rw [layOut]
    cases layout : p.query.layout with
    | long => exact absurd layout wide
    | region | time => rfl
  rw [frame, laidOut, wideFrame_eq, finished_fill p some]
  exact congrArg (Frame.fill (p.wideValue t.observations) ·
    (p.withArrangedColumns (p.wideShape t.observations))) (p.sortRows_indexValues t.observations)

theorem nodup_wideKeys (p : Presentation) (l : List Observation) :
    (p.wideKeys (p.pivotKeys l)).Nodup := by
  have distinct : p.wideFields.Nodup := by
    rw [wideFields]
    split <;> simp
  exact nodup_keys distinct (SortedSet.nodup _) (fun _ _ => ColumnKey.pivot.inj) nofun

end Presentation

end RegionalTables
