import Mathlib.Data.Set.List
import RegionalTables.Proofs.Cell.Order
import RegionalTables.Proofs.Presentation.Pivot
import RegionalTables.Proofs.Text.Order

/-! The order of rows. The long layout has each observation once, sorted column by column, and what no
column tells apart stays in the order of the table. In the wide layouts the labels of the rows decide
alone, so the sort asked for leaves no trace. -/
namespace RegionalTables

theorem pairwise_snd_zipIdx (l : List α) : l.zipIdx.Pairwise fun r s => r.2 < s.2 := by
  rw [← List.pairwise_map (f := Prod.snd), List.zipIdx_map_snd]
  exact List.pairwise_lt_range' 1

namespace Presentation

/-- The columns as they decide about rows: that of the sort asked for, the others of region, time and
measure, and then the rest by header. -/
structure Weighs (p : Presentation) (columns leading rest : List Column) : Prop where
  all : (leading ++ rest).Perm columns
  fields : leading.map (·.key) = (p.sortField ::
    [Field.regionId, p.timeField, Field.measure].filter (· != p.sortField)).map .field
  byHeader : rest.Pairwise fun c d => (compare c.header d.header).isLE = true

/-- What an observation has in these columns of a finished long frame. -/
def longRow (p : Presentation) (columns : List Column) (o : Observation) : List Cell :=
  columns.map fun c => p.longValue c.key o

/-- Numbered observations are compared cell by cell. Those that are alike in all columns keep the order
of their numbers. -/
def RowBefore (p : Presentation) (columns : List Column) (r s : Observation × Nat) : Prop :=
  compare (p.longRow columns r.1) (p.longRow columns s.1) = .lt ∨
    compare (p.longRow columns r.1) (p.longRow columns s.1) = .eq ∧ r.2 < s.2

/-- The rows of a finished long frame are the numbered observations of the table, each once, and in order
as the columns weigh. -/
structure LongRows (p : Presentation) (t : BaseTable) (leading rest : List Column)
    (rows : List (Observation × Nat)) : Prop where
  each : rows.Perm t.observations.zipIdx
  keys : ((p.frame t).all.map (·.key)).Perm (p.longKeys (dimensionKeys t.observations))
  cells : ∀ c ∈ (p.frame t).all, c.cells = rows.map fun r => p.longValue c.key r.1
  weighs : p.Weighs (p.frame t).columns leading rest
  ordered : rows.Pairwise (p.RowBefore (leading ++ rest))

variable {p : Presentation} {t : BaseTable}

/-- The keys by which the observations are sorted compare like their rows. -/
theorem compare_cellKeys (f : Frame) (o o' : Observation) :
    compare (p.cellKeys p.longValue f o) (p.cellKeys p.longValue f o') =
      compare (p.longRow (p.sortColumns f) o) (p.longRow (p.sortColumns f) o') := by
  rw [longRow, longRow, ← Cell.compare_map_sortKey, List.map_map, List.map_map]
  rfl

/-- Cells do not decide about the order of columns. -/
theorem longRow_sortColumns_fill (rows : List Observation) (f : Frame) (o : Observation) :
    p.longRow (p.sortColumns (f.fill p.longValue rows)) o = p.longRow (p.sortColumns f) o := by
  have filled := arrange_map (g := .fill p.longValue rows) (fun _ => rfl) (fun _ => rfl)
    (p.sortField :: p.naturalFields.filter (· != p.sortField)) f
  rw [sortColumns, Frame.fill, filled, longRow, List.map_map]
  rfl

section

variable (long : p.query.layout = .long)

include long

theorem naturalFields_of_long :
    p.naturalFields = [Field.regionId, p.timeField, Field.measure] := by
  simp [naturalFields, timeRows, long]

/-- The fields that decide about rows all have a column in the long layout. -/
theorem mem_longFields {name : String}
    (sorts : name ∈ p.sortField :: p.naturalFields.filter (· != p.sortField)) :
    name ∈ p.longFields := by
  obtain rfl | natural := List.mem_cons.1 sorts
  · simp only [sortField, longFields]
    cases p.query.sort <;> simp
  · have natural := List.mem_of_mem_filter natural
    rw [naturalFields_of_long long] at natural
    simp only [List.mem_cons, List.not_mem_nil, or_false] at natural
    obtain rfl | rfl | rfl := natural <;> simp [longFields]

theorem exists_weighs {f : Frame} (apart : (f.columns.map (·.key)).Nodup)
    (there : ∀ name ∈ p.longFields, ColumnKey.field name ∈ f.columns.map (·.key)) :
    ∃ leading rest, leading ++ rest = p.sortColumns f ∧ p.Weighs f.columns leading rest := by
  refine ⟨_, _, rfl, p.sortColumns_perm apart, ?_, pairwise_sortOn _ _⟩
  rw [← naturalFields_of_long long, keys_found, List.filter_eq_self.2]
  intro name sorts
  exact decide_eq_true (there name (mem_longFields long sorts))

/-- A finished long frame is sorted. -/
theorem exists_longRows (t : BaseTable) : ∃ leading rest rows, p.LongRows t leading rest rows := by
  let shape := p.longShape t.observations
  let key (r : Observation × Nat) := p.cellKeys p.longValue shape r.1
  let rows := sortOn key t.observations.zipIdx
  let filled := shape.fill p.longValue (rows.map (·.1))
  have observed : rows.map (·.1) = p.sortRows p.longValue shape t.observations := by
    have sorted := map_sortOn (p.cellKeys p.longValue shape) (·.1) t.observations.zipIdx
    rw [List.zipIdx_map_fst] at sorted
    exact sorted
  have frame : p.frame t = (p.withArrangedColumns shape).fill p.longValue (rows.map (·.1)) := by
    rw [observed]
    exact frame_of_long long t
  have keys : filled.columns.map (·.key) = p.longKeys (dimensionKeys t.observations) :=
    List.map_map.trans (p.keys_labelled_ofKeys none _)
  have once := p.nodup_longKeys t.observations
  have apart : (filled.columns.map (·.key)).Nodup := keys ▸ once
  have there : ∀ name ∈ p.longFields, ColumnKey.field name ∈ filled.columns.map (·.key) := by
    intro name shown
    rw [keys, longKeys]
    exact List.mem_append_left _ (List.mem_map_of_mem shown)
  obtain ⟨leading, rest, sorted, weighs⟩ := exists_weighs long apart there
  have arranged : filled.columns.Perm (p.frame t).columns := by
    rw [frame, ← withArrangedColumns_fill]
    exact (p.withArrangedColumns_perm apart).symm
  have compared : ∀ o o', compare (p.longRow (leading ++ rest) o) (p.longRow (leading ++ rest) o') =
      compare (p.cellKeys p.longValue shape o) (p.cellKeys p.longValue shape o') := by
    intro o o'
    rw [sorted, longRow_sortColumns_fill, longRow_sortColumns_fill, compare_cellKeys]
  refine ⟨leading, rest, rows, ?_⟩
  constructor
  case each => exact sortOn_perm _ _
  case keys =>
    rw [frame, Frame.all_fill, List.map_map]
    exact p.keys_arranged none once
  case cells =>
    intro c own
    rw [frame] at own
    obtain ⟨d, _, rfl⟩ : ∃ d ∈ (p.withArrangedColumns shape).columns,
        d.fill p.longValue (rows.map (·.1)) = c := List.mem_map.1 own
    simp [Column.fill, Function.comp_def]
  case weighs => exact ⟨weighs.all.trans arranged, weighs.fields, weighs.byHeader⟩
  case ordered =>
    refine (pairwise_sortOn_of_pairwise key (pairwise_snd_zipIdx t.observations)).imp ?_
    intro r s before
    rw [RowBefore, compared]
    exact before

end

section

variable {leading rest : List Column} {rows rows' : List (Observation × Nat)}

theorem RowBefore.asymm {columns : List Column} {r s : Observation × Nat}
    (before : p.RowBefore columns r s) : ¬ p.RowBefore columns s r := by
  have swap : compare (p.longRow columns s.1) (p.longRow columns r.1) =
      (compare (p.longRow columns r.1) (p.longRow columns s.1)).swap := Std.OrientedCmp.eq_swap
  rw [RowBefore, swap]
  rcases before with less | ⟨equal, number⟩
  · simp [less]
  · simp only [equal]
    rintro (less | ⟨_, number'⟩)
    · cases less
    · omega

/-- There is one such order. -/
theorem rows_unique {columns : List Column} (same : rows.Perm rows')
    (ordered : rows.Pairwise (p.RowBefore columns)) (ordered' : rows'.Pairwise (p.RowBefore columns)) :
    rows = rows' :=
  same.eq_of_pairwise (fun _ _ _ _ before after => absurd after before.asymm) ordered ordered'

/-- The fields that come first decide about rows by what they are, whatever the other columns. -/
theorem LongRows.longRow_eq (shown : p.LongRows t leading rest rows) (o : Observation) :
    p.longRow (leading ++ rest) o = p.longValue (.field p.sortField) o ::
      (([Field.regionId, p.timeField, Field.measure].filter (· != p.sortField)).map
        (fun name => p.longValue (.field name) o) ++ p.longRow rest o) := by
  have front : p.longRow leading o = (leading.map (·.key)).map fun key => p.longValue key o := by
    rw [longRow, List.map_map]
    rfl
  rw [longRow, List.map_append]
  change p.longRow leading o ++ _ = _
  rw [front, shown.weighs.fields, List.map_map]
  rfl

/-- The column of the sort is in order. -/
theorem LongRows.pairwise_sortField (shown : p.LongRows t leading rest rows) :
    (rows.map fun r => p.longValue (.field p.sortField) r.1).Pairwise fun a b =>
      (compare a b).isLE = true := by
  refine List.pairwise_map.2 (shown.ordered.imp ?_)
  intro r s before
  have le : (compare (p.longRow (leading ++ rest) r.1) (p.longRow (leading ++ rest) s.1)).isLE =
      true := by
    obtain less | ⟨equal, _⟩ := before
    · rw [less]
      rfl
    · rw [equal]
      rfl
  rw [shown.longRow_eq, shown.longRow_eq, List.compare_cons_cons] at le
  exact Ordering.isLE_left_of_isLE_then le

/-- The column of the sort is there. -/
theorem LongRows.exists_sortColumn (shown : p.LongRows t leading rest rows) :
    ∃ c ∈ (p.frame t).columns, c.key = .field p.sortField ∧
      c.cells = rows.map fun r => p.longValue (.field p.sortField) r.1 := by
  cases leading with
  | nil => simpa using shown.weighs.fields
  | cons c others =>
    have own : c ∈ (p.frame t).columns := shown.weighs.all.mem_iff.1 (by simp)
    have key : c.key = .field p.sortField := (List.cons.inj shown.weighs.fields).1
    exact ⟨c, own, key, key ▸ shown.cells c (List.mem_append_right _ own)⟩

end

end Presentation

namespace Sample

/-- The counts in the order of falling values. -/
def falling : BaseTable := ⟨counts.observations.reverse, []⟩

def listed (labels : Labels) : Presentation :=
  ⟨catalog, names, { query with layout := .long, labels, sort := .value }⟩

end Sample

namespace Presentation

open Sample (falling listed counts)

variable {p : Presentation} {t : BaseTable}

/-- The same presentation under another sort. -/
def sortedBy (p : Presentation) (sort : SortKey) : Presentation :=
  { p with query := { p.query with sort } }

section

variable (wide : p.query.layout ≠ .long)

include wide

theorem frame_sortedBy (sort : SortKey) (t : BaseTable) : (p.sortedBy sort).frame t = p.frame t := by
  have wide' : (p.sortedBy sort).query.layout ≠ .long := wide
  rw [frame_of_wide wide', frame_of_wide wide]
  rfl

/-- The rows of the wide layouts are those of the regions or times of the table, each once and in the
order of their bytes, and the sort asked for changes nothing in any format. -/
theorem wide_rows_by_index (t : BaseTable) :
    (∃ labels : List String, (p.frame t).index.map (·.cells) = some (labels.map .text) ∧
      (∀ c ∈ (p.frame t).all, c.cells.length = labels.length) ∧
      labels.Pairwise Text.bytesBelow ∧
      ∀ label, label ∈ labels ↔ ∃ o ∈ t.observations, p.query.layout.label o.place = label) ∧
    ∀ sort, (p.sortedBy sort).render t = p.render t ∧
      (p.sortedBy sort).renderAll t = p.renderAll t := by
  have pivots := pivots_frame wide t
  refine ⟨⟨p.indexValues t.observations, pivots.index, ?_, ?_, pivots.labelled⟩, fun sort => ?_⟩
  · intro c own
    rw [frame_of_wide wide, Frame.all_fill] at own
    obtain ⟨d, _, rfl⟩ := List.mem_map.1 own
    exact List.length_map _
  · refine (SortedSet.ascending _).imp ?_
    intro x y before
    exact Text.bytesBelow_iff.2 (compare_lt_iff_lt.1 before)
  · have same := frame_sortedBy wide sort t
    rw [render, render, renderAll, renderAll, same]
    exact ⟨rfl, rfl⟩

end

theorem counts_under_any_sort : (Sample.wide .time).query.layout ≠ .long ∧
    ((Sample.wide .time).frame counts).labels.length = 2 ∧
      ∀ sort, ((Sample.wide .time).sortedBy sort).render counts =
        (Sample.wide .time).render counts := by
  have wide : (Sample.wide .time).query.layout ≠ .long := by decide
  obtain ⟨⟨labels, index, _, ascending, labelled⟩, unsorted⟩ := wide_rows_by_index wide counts
  have years : labels.Perm ["2005", "2006"] := by
    have once : labels.Nodup := ascending.imp fun before same => by
      rw [Text.bytesBelow_iff, same] at before
      exact lt_irrefl _ before
    refine (List.perm_ext_iff_of_nodup once (by decide)).2 fun label => ?_
    rw [labelled]
    simp [counts, Layout.label, Sample.wide, Observation.place, eq_comm]
  refine ⟨wide, ?_, fun sort => (unsorted sort).1⟩
  rw [Frame.labels, index]
  simpa using years.length_eq

/-- A finished long frame of integers lists those of the table, in the order of what they are rounded to,
and in their own if and only if those that are rounded to the same are. -/
structure ListsIntegers (p : Presentation) (t : BaseTable) (values : List Int64) : Prop where
  column : ∃ c ∈ (p.frame t).columns, c.key = .field Field.value ∧ c.cells = values.map .integer
  each : (values.map Cell.integer).Perm (t.observations.map (·.value))
  ordered : values.Pairwise fun a b => Cell.rounded a ≤ Cell.rounded b
  ascending : values.Pairwise (fun a b => a.toInt ≤ b.toInt) ↔
    values.Pairwise fun a b => Cell.rounded a = Cell.rounded b → a.toInt ≤ b.toInt

theorem exists_listsIntegers (long : p.query.layout = .long) (byValue : p.query.sort = .value)
    (integers : ∀ o ∈ t.observations, ∃ n, o.value = .integer n) : ∃ values, p.ListsIntegers t values := by
  obtain ⟨leading, rest, rows, shown⟩ := exists_longRows long t
  have field : p.sortField = Field.value := by rw [sortField, byValue]
  have observed : (rows.map (·.1)).Perm t.observations := by
    have each := shown.each.map (·.1)
    rwa [List.zipIdx_map_fst] at each
  obtain ⟨values, listed⟩ : ∃ values : List Int64, values.map Cell.integer = rows.map (·.1.value) := by
    apply (Set.ext_iff.1 (Set.range_list_map Cell.integer) _).2
    intro c member
    obtain ⟨r, own, rfl⟩ := List.mem_map.1 member
    obtain ⟨n, integer⟩ := integers r.1 (observed.mem_iff.1 (List.mem_map_of_mem own))
    exact ⟨n, integer.symm⟩
  have cells : rows.map (fun r => p.longValue (.field Field.value) r.1) = values.map .integer := by
    rw [listed]
    refine List.map_congr_left fun r own => ?_
    obtain ⟨n, integer⟩ := integers r.1 (observed.mem_iff.1 (List.mem_map_of_mem own))
    change r.1.value.coerce = r.1.value
    rw [integer]
    rfl
  have ordered : values.Pairwise fun a b => Cell.rounded a ≤ Cell.rounded b := by
    have sorted := shown.pairwise_sortField
    rw [field, cells, List.pairwise_map] at sorted
    refine sorted.imp ?_
    intro a b le
    rwa [Cell.compare_integer, Int.isLE_compare] at le
  refine ⟨values, ⟨?_, ?_, ordered, ?_, ?_⟩⟩
  · have column := shown.exists_sortColumn
    rwa [field, cells] at column
  · rw [listed]
    simpa [List.map_map, Function.comp_def] using observed.map (·.value)
  · intro ascending
    refine ascending.imp ?_
    intro a b le _
    exact le
  · intro alike
    refine (ordered.and alike).imp ?_
    rintro a b ⟨le, alike⟩
    by_contra above
    have ge := Cell.rounded_mono (a := b) (b := a) (by omega)
    exact above (alike (Int.le_antisymm le ge))

/-- Integers stand in the order of what they are at double precision. So they are never shown the wrong
way round unless they are rounded to the same, as no two of at most 53 bits are, and a long table of
integers is sorted by value up to such neighbours. -/
theorem integers_in_order_of_rounding (p : Presentation) (t : BaseTable) :
    (∀ a b : Int64, compare (Cell.integer a) (.integer b) = compare (Cell.rounded a) (Cell.rounded b) ∧
      (compare (Cell.integer a) (.integer b) = compare a.toInt b.toInt ↔
        (Cell.rounded a = Cell.rounded b → a = b)) ∧
      (a.toInt ≤ b.toInt → Cell.rounded a ≤ Cell.rounded b)) ∧
    (∀ n : Int64, (Cell.rounded n = n.toInt ↔ Binary64.spacing n.toInt.natAbs ∣ n.toInt.natAbs) ∧
      2 * (Cell.rounded n - n.toInt).natAbs ≤ Binary64.spacing n.toInt.natAbs) ∧
    (p.query.layout = .long → p.query.sort = .value →
      (∀ o ∈ t.observations, ∃ n, o.value = .integer n) → ∃ values, p.ListsIntegers t values) := by
  refine ⟨fun a b => ⟨?_, ?_, ?_⟩, fun n => ⟨?_, ?_⟩, ?_⟩
  · exact Cell.compare_integer a b
  · exact Cell.compare_integer_eq_iff a b
  · exact Cell.rounded_mono
  · exact Cell.rounded_eq_iff n
  · exact Cell.rounded_near n
  · intro long byValue integers
    exact exists_listsIntegers long byValue integers

end Presentation

namespace Sample

/-- Counts that no double tells apart, the greater one in the region that comes first. -/
def neighbours : BaseTable where
  observations := [
    ⟨"05111", "2005", "12411", "BEVSTD", .integer 9007199254740993, .empty⟩,
    ⟨"11", "2005", "12411", "BEVSTD", .integer 9007199254740992, .empty⟩]
  cubes := []

end Sample

namespace Presentation

open Sample (neighbours listed)

theorem neighbours_listed : (listed .id).query.layout = .long ∧ (listed .id).query.sort = .value ∧
    (∀ o ∈ neighbours.observations, ∃ n, o.value = .integer n) ∧
      ∃ values, (listed .id).ListsIntegers neighbours values := by
  have integers : ∀ o ∈ neighbours.observations, ∃ n, o.value = .integer n := by
    simp [neighbours]
  obtain ⟨_, _, lists⟩ := integers_in_order_of_rounding (listed .id) neighbours
  exact ⟨rfl, rfl, integers, lists rfl rfl integers⟩

/-- The regions decide, so the greater value is listed first. -/
theorem neighbours_descend :
    compare (Cell.integer 9007199254740993) (.integer 9007199254740992) = .eq ∧
      (listed .id).query.layout = .long ∧ (listed .id).query.sort = .value ∧
      ∃ c ∈ ((listed .id).frame neighbours).columns, c.key = .field Field.value ∧
        c.cells = [.integer 9007199254740993, .integer 9007199254740992] := by
  have alike : compare (Cell.integer 9007199254740993) (.integer 9007199254740992) = .eq := by
    decide +kernel
  have value : compare ((listed .id).longValue (.field Field.value) neighbours.observations[0])
      ((listed .id).longValue (.field Field.value) neighbours.observations[1]) = .eq := alike
  have region : compare ((listed .id).longValue (.field Field.regionId) neighbours.observations[0])
      ((listed .id).longValue (.field Field.regionId) neighbours.observations[1]) = .lt := by
    decide +kernel
  obtain ⟨leading, rest, rows, shown⟩ := exists_longRows (p := listed .id) rfl neighbours
  have row : ∀ o, (listed .id).longRow (leading ++ rest) o =
      (listed .id).longValue (.field Field.value) o :: (listed .id).longValue (.field Field.regionId) o ::
        (listed .id).longValue (.field (listed .id).timeField) o ::
          (listed .id).longValue (.field Field.measure) o :: (listed .id).longRow rest o := shown.longRow_eq
  have before : neighbours.observations.zipIdx.Pairwise ((listed .id).RowBefore (leading ++ rest)) := by
    refine List.pairwise_pair.2 (.inl ?_)
    rw [row, row, List.compare_cons_cons, List.compare_cons_cons]
    exact Ordering.then_eq_lt.2 (.inr ⟨value, Ordering.then_eq_lt.2 (.inl region)⟩)
  obtain ⟨c, own, key, cells⟩ := shown.exists_sortColumn
  refine ⟨alike, rfl, rfl, c, own, key, ?_⟩
  rw [cells, rows_unique shown.each shown.ordered before]
  rfl

end Presentation

end RegionalTables
