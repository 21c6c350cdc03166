import RegionalTables.Presentation.Rendering
import RegionalTables.Proofs.Collections
import RegionalTables.Proofs.StableSort

/-! Columns in a frame that is made from rows. Each cell is told by the key of its column and the row
it stands in, so the steps from a layout to the finished frame act on the headers, on the cells or on
the rows, each by itself, and never on one column's rows alone. -/
namespace RegionalTables

/-- The rows `picked` are those that stand at the places `order`. -/
def Picks (rows : List α) (order : List Nat) (picked : List α) : Prop :=
  ∃ pairs : List (Nat × α), (∀ p ∈ pairs, rows[p.1]? = some p.2) ∧
    pairs.map (·.1) = order ∧ pairs.map (·.2) = picked

namespace Picks

variable {α : Type u} {rows picked : List α} {order : List Nat}

theorem range (rows : List α) : Picks rows (List.range rows.length) rows := by
  refine ⟨rows.zipIdx.map Prod.swap, ?_, ?_, ?_⟩
  · intro p member
    obtain ⟨r, indexed, rfl⟩ := List.mem_map.1 member
    exact List.mem_zipIdx_iff_getElem?.1 indexed
  · rw [List.map_map, List.range_eq_range']
    exact List.zipIdx_map_snd 0 rows
  · rw [List.map_map]
    exact List.zipIdx_map_fst 0 rows

/-- Places sorted by the keys of what stands there pick the sorted rows. -/
theorem sortOn [Ord κ] (picks : Picks rows order picked) (keyAt : Nat → κ) (key : α → κ)
    (told : ∀ i a, rows[i]? = some a → keyAt i = key a) :
    Picks rows (sortOn keyAt order) (sortOn key picked) := by
  obtain ⟨pairs, stand, rfl, rfl⟩ := picks
  refine ⟨RegionalTables.sortOn (fun p => keyAt p.1) pairs, fun p member => ?_, ?_, ?_⟩
  · exact stand p (mem_sortOn.1 member)
  · exact map_sortOn keyAt _ pairs
  · rw [sortOn_congr fun p member => told p.1 p.2 (stand p member)]
    exact map_sortOn key _ pairs

theorem map_eq {f : Nat → β} {g : α → β} (picks : Picks rows order picked)
    (told : ∀ i a, rows[i]? = some a → f i = g a) : order.map f = picked.map g := by
  obtain ⟨pairs, stand, rfl, rfl⟩ := picks
  rw [List.map_map, List.map_map]
  exact List.map_congr_left fun p member => told p.1 p.2 (stand p member)

end Picks

/-- The cells of a column, one for each row. -/
def Column.fill (cell : ColumnKey → α → Cell) (rows : List α) (c : Column) : Column :=
  { c with cells := rows.map (cell c.key) }

def Frame.fill (cell : ColumnKey → α → Cell) (rows : List α) (f : Frame) : Frame :=
  f.mapColumns (.fill cell rows)

namespace Column

variable {α : Type u} {cell : ColumnKey → α → Cell} {rows picked : List α} {order : List Nat}

theorem cell_fill {i : Nat} {a : α} (here : rows[i]? = some a) (c : Column) :
    (c.fill cell rows).cell i = cell c.key a := by
  simp [Column.cell, fill, here]

theorem permute_fill (picks : Picks rows order picked) (c : Column) :
    (c.fill cell rows).permute order = c.fill cell picked := by
  have cells : order.map (c.fill cell rows).cell = picked.map (cell c.key) :=
    picks.map_eq fun i a here => cell_fill here c
  rw [permute, cells]
  rfl

theorem mapCells_fill (g : Cell → Cell) (c : Column) :
    (c.fill cell rows).mapCells g = c.fill (fun key a => g (cell key a)) rows := by
  simp [mapCells, fill]

end Column

namespace Frame

variable {α : Type u} {cell : ColumnKey → α → Cell} {rows picked : List α} {order : List Nat}

theorem permute_fill (picks : Picks rows order picked) (f : Frame) :
    (f.fill cell rows).permute order = f.fill cell picked := by
  simp [permute, fill, mapColumns, Function.comp_def, Column.permute_fill picks]

theorem mapCells_fill (g : Cell → Cell) (f : Frame) :
    (f.fill cell rows).mapCells g = f.fill (fun key a => g (cell key a)) rows := by
  simp [mapCells, fill, mapColumns, Function.comp_def, Column.mapCells_fill]

theorem all_mapColumns (g : Column → Column) (f : Frame) : (f.mapColumns g).all = f.all.map g := by
  cases index : f.index <;> simp [all, mapColumns, index]

theorem keys_permute (order : List Nat) (f : Frame) :
    (f.permute order).columns.map (·.key) = f.columns.map (·.key) := by
  rw [permute, mapColumns, List.map_map]
  rfl

theorem keys_all_permute (order : List Nat) (f : Frame) :
    (f.permute order).all.map (·.key) = f.all.map (·.key) := by
  rw [permute, all_mapColumns, List.map_map]
  rfl

theorem all_fill (cell : ColumnKey → α → Cell) (rows : List α) (f : Frame) :
    (f.fill cell rows).all = f.all.map (.fill cell rows) :=
  all_mapColumns _ f

theorem length_fill {f : Frame} (some : f.all ≠ []) : (f.fill cell rows).length = rows.length := by
  obtain ⟨c, others, all⟩ := List.exists_cons_of_ne_nil some
  rw [length, all_fill, all]
  simp [Column.fill]

theorem mapColumns_congr {f : Frame} {g h : Column → Column} (same : ∀ c ∈ f.all, g c = h c) :
    f.mapColumns g = f.mapColumns h := by
  have columns := List.map_congr_left fun c own => same c (List.mem_append_right _ own)
  rw [mapColumns, columns, mapColumns]
  cases index : f.index with
  | none => rfl
  | some c => simp [same c (by simp [all, index])]

theorem fill_congr {β : Type v} {cell' : ColumnKey → β → Cell} {rows' : List β} {f : Frame}
    (same : ∀ c ∈ f.all, rows.map (cell c.key) = rows'.map (cell' c.key)) :
    f.fill cell rows = f.fill cell' rows' :=
  mapColumns_congr fun c own => by rw [Column.fill, same c own, Column.fill]

end Frame

namespace Presentation

variable {α : Type u} {cell : ColumnKey → α → Cell} {rows : List α}

/-- The fields that have a column are found, in the order of the fields. -/
theorem keys_found (fields : List String) (f : Frame) :
    (fields.filterMap f.column?).map (·.key) =
      (fields.filter fun name => .field name ∈ f.columns.map (·.key)).map .field := by
  induction fields with
  | nil => rfl
  | cons name fields ih =>
    cases found : f.column? name with
    | none =>
      have absent : .field name ∉ f.columns.map (·.key) := by
        intro there
        obtain ⟨c, own, key⟩ := List.mem_map.1 there
        rw [Frame.column?_eq_find?] at found
        exact List.find?_eq_none.1 found c own (by simp [Column.isField, key])
      rw [List.filterMap_cons, found, List.filter_cons_of_neg (by simpa using absent)]
      exact ih
    | some c =>
      have first := f.column?_eq_find? name ▸ found
      have key : c.key = .field name := by simpa [Column.isField] using List.find?_some first
      have there : .field name ∈ f.columns.map (·.key) :=
        key ▸ List.mem_map_of_mem (List.mem_of_find?_eq_some first)
      rw [List.filterMap_cons, found, List.filter_cons_of_pos (by simpa using there), List.map_cons,
        List.map_cons, key, ih]

/-- The order of columns is settled by their keys and headers. -/
theorem arrange_map {g : Column → Column} (key : ∀ c, (g c).key = c.key)
    (header : ∀ c, (g c).header = c.header) (fields : List String) (f : Frame) :
    arrange fields (f.mapColumns g) = (arrange fields f).map g := by
  have isField : ∀ c name, (g c).isField name = c.isField name := fun c name => by
    simp [Column.isField, key]
  have found : ∀ name, (f.mapColumns g).column? name = (f.column? name).map g := fun name => by
    simp only [Frame.column?_eq_find?, Frame.mapColumns, List.find?_map, Function.comp_def, isField]
  simp only [arrange, Frame.mapColumns, List.map_append, List.map_filterMap, List.filter_map,
    ← map_sortOn, Function.comp_def, isField, header, ← found]

theorem filter_isField {f : Frame} (apart : (f.columns.map (·.key)).Nodup) (name : String) :
    f.columns.filter (·.isField name) = (f.column? name).toList := by
  rw [Frame.column?_eq_find?]
  apply filter_eq_toList_find?
  refine (List.pairwise_map.1 apart).imp fun {a b} apart both => apart ?_
  simp only [Column.isField, beq_iff_eq] at both
  rw [both.1, both.2]

/-- A column of a field that is not among `fields` is kept when theirs are left out. -/
theorem filter_isField_others {f : Frame} (apart : (f.columns.map (·.key)).Nodup)
    {fields : List String} {name : String} (absent : name ∉ fields) :
    (f.columns.filter fun c => fields.all fun other => !c.isField other).filter (·.isField name) =
      (f.column? name).toList := by
  rw [List.filter_filter]
  refine (List.filter_congr fun c _ => ?_).trans (filter_isField apart name)
  simp only [Bool.and_eq_left_iff_imp, List.all_eq_true, Column.isField, beq_iff_eq]
  intro isName other later
  have unlike : name ≠ other := fun same => absent (same ▸ later)
  simp [isName, unlike]

/-- The columns of the fields and the others are all columns. -/
theorem fields_append_others_perm {fields : List String} {f : Frame}
    (distinct : fields.Nodup) (apart : (f.columns.map (·.key)).Nodup) :
    (fields.filterMap f.column? ++
      f.columns.filter fun c => fields.all fun name => !c.isField name).Perm f.columns := by
  induction fields with
  | nil => rw [List.filterMap_nil, List.nil_append, List.filter_eq_self.2 (by simp)]
  | cons name fields ih =>
    obtain ⟨absent, distinct⟩ := List.nodup_cons.1 distinct
    let found := fields.filterMap f.column?
    let rest := f.columns.filter fun c => fields.all fun name => !c.isField name
    have front : (name :: fields).filterMap f.column? = (f.column? name).toList ++ found := by
      rw [List.filterMap_cons]
      cases f.column? name <;> rfl
    have others : rest.filter (fun c => !c.isField name) =
        f.columns.filter fun c => (name :: fields).all fun name => !c.isField name :=
      List.filter_filter
    -- what is found of the first field is taken from the others of the fields after it
    have parts := List.filter_append_perm (·.isField name) rest
    rw [filter_isField_others apart absent, others] at parts
    rw [front]
    refine (List.perm_append_comm.append_right _).trans ?_
    rw [List.append_assoc]
    exact (parts.append_left found).trans (ih distinct)

/-- No column is lost or repeated, as each field is one column at most. -/
theorem arrange_perm {fields : List String} {f : Frame} (distinct : fields.Nodup)
    (apart : (f.columns.map (·.key)).Nodup) : (arrange fields f).Perm f.columns :=
  ((List.Perm.refl _).append (sortOn_perm _ _)).trans (fields_append_others_perm distinct apart)

theorem nodup_naturalFields (p : Presentation) : p.naturalFields.Nodup := by
  simp only [naturalFields, timeField]
  cases p.timeRows <;> cases p.query.timeField <;> decide

theorem nodup_leadingFields (p : Presentation) : p.leadingFields.Nodup := by
  simp only [leadingFields, timeField]
  cases p.query.layout <;> cases p.query.timeField <;> decide

theorem sortColumns_perm (p : Presentation) {f : Frame}
    (apart : (f.columns.map (·.key)).Nodup) : (p.sortColumns f).Perm f.columns := by
  apply arrange_perm _ apart
  rw [List.nodup_cons]
  exact ⟨by simp, p.nodup_naturalFields.filter _⟩

theorem withArrangedColumns_perm (p : Presentation) {f : Frame}
    (apart : (f.columns.map (·.key)).Nodup) : (p.withArrangedColumns f).columns.Perm f.columns :=
  arrange_perm p.nodup_leadingFields apart

theorem tellApart_fill (headers : List String) (c : Column) :
    tellApart headers (c.fill cell rows) = (tellApart headers c).fill cell rows := by
  have key : (c.fill cell rows).key = c.key := rfl
  have header : (c.fill cell rows).header = c.header := rfl
  simp only [tellApart, key, header]
  split
  · rfl
  · split <;> rfl

theorem key_tellApart (headers : List String) (c : Column) : (tellApart headers c).key = c.key := by
  rw [tellApart]
  split
  · rfl
  · split <;> rfl

/-- Headers are given to columns, not to keys. -/
theorem keys_labelled (p : Presentation) (f : Frame) :
    (p.labelled f).columns.map (·.key) = f.columns.map (·.key) := by
  simp [labelled, Frame.mapColumns, Function.comp_def, key_tellApart, withHeader]

theorem labelled_fill (p : Presentation) (f : Frame) :
    p.labelled (f.fill cell rows) = (p.labelled f).fill cell rows := by
  have withHeader : ∀ c : Column, p.withHeader (c.fill cell rows) = (p.withHeader c).fill cell rows :=
    fun _ => rfl
  have header : ∀ c : Column, ((p.withHeader c).fill cell rows).header = (p.withHeader c).header :=
    fun _ => rfl
  simp [labelled, Frame.fill, Frame.mapColumns, Function.comp_def, withHeader, header, tellApart_fill]

theorem withArrangedColumns_fill (p : Presentation) (f : Frame) :
    p.withArrangedColumns (f.fill cell rows) = (p.withArrangedColumns f).fill cell rows := by
  have arranged := arrange_map (g := .fill cell rows) (fun _ => rfl) (fun _ => rfl) p.leadingFields f
  rw [withArrangedColumns, Frame.fill, arranged]
  rfl

/-- What decides about a row before the index: its cells, the columns in the order of their weight. -/
def cellKeys (p : Presentation) (cell : ColumnKey → α → Cell) (f : Frame) (a : α) :
    List Cell.SortKey :=
  (p.sortColumns f).map fun c => (cell c.key a).sortKey

/-- The rows as they are sorted. -/
def sortRows (p : Presentation) (cell : ColumnKey → α → Cell) (f : Frame) (rows : List α) : List α :=
  let sorted := sortOn (p.cellKeys cell f) rows
  match f.index with
  | some index => sortOn (fun a => (cell index.key a).sortKey) sorted
  | none => sorted

/-- Sorting a frame is sorting the rows it is made from. -/
theorem sorted_fill (p : Presentation) {f : Frame} (some : f.all ≠ []) :
    p.sorted (f.fill cell rows) = f.fill cell (p.sortRows cell f rows) := by
  have columns : p.sortColumns (f.fill cell rows) = (p.sortColumns f).map (.fill cell rows) :=
    arrange_map (g := .fill cell rows) (fun _ => rfl) (fun _ => rfl) _ f
  have keys : ∀ i a, rows[i]? = Option.some a →
      rowKey (p.sortColumns (f.fill cell rows)) i = p.cellKeys cell f a := by
    intro i a here
    simp [rowKey, cellKeys, columns, Function.comp_def, Column.cell_fill here]
  have sorted : Picks rows (p.rowOrder (f.fill cell rows)) (p.sortRows cell f rows) := by
    have first := (Picks.range rows).sortOn _ _ keys
    rw [rowOrder, Frame.length_fill some, sortRows]
    cases index : f.index with
    | none => simpa [Frame.fill, Frame.mapColumns, index] using first
    | some c =>
      have second := first.sortOn (fun i => ((c.fill cell rows).cell i).sortKey)
        (fun a => (cell c.key a).sortKey) fun i a here => by rw [Column.cell_fill here]
      simpa [Frame.fill, Frame.mapColumns, index] using second
  rw [Presentation.sorted, Frame.permute_fill sorted]

/-- From a layout that is made from rows to the finished frame: the headers are those of the layout
without cells, the cells are coerced, and the rows are sorted. -/
theorem finished_fill (p : Presentation) {f : Frame} (some : f.all ≠ []) :
    p.withArrangedColumns (p.sorted ((p.labelled (f.fill cell rows)).mapCells Cell.coerce)) =
      (p.withArrangedColumns (p.labelled f)).fill (fun key a => (cell key a).coerce)
        (p.sortRows (fun key a => (cell key a).coerce) (p.labelled f) rows) := by
  have length : (p.labelled f).all.length = f.all.length := by
    cases index : f.index <;> simp [Frame.all, labelled, Frame.mapColumns, index]
  have some : (p.labelled f).all ≠ [] := by
    rw [← List.length_pos_iff] at some ⊢
    omega
  rw [labelled_fill, Frame.mapCells_fill, sorted_fill p some, withArrangedColumns_fill]

end Presentation

end RegionalTables
