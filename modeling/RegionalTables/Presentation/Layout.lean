import RegionalTables.BaseTable.Basic
import RegionalTables.Presentation.Basic
import RegionalTables.SortedSet

/-! Laying out a base table. The long layout has a row for each observation; the wide ones have a
row for each region or time and a column for each measure at the other of the two. -/
namespace RegionalTables

def DimensionKey.path (k : DimensionKey) : List String := [k.statistic, k.measure, k.dimension]

instance : Ord DimensionKey := ⟨compareOn DimensionKey.path⟩
instance : Std.TransOrd DimensionKey := inferInstanceAs (Std.TransCmp (compareOn DimensionKey.path))

instance : Std.LawfulEqOrd DimensionKey where
  eq_of_compare {a b} h := by
    have := Std.LawfulEqCmp.compare_eq_iff_eq.1 (show compare a.path b.path = .eq from h)
    cases a; cases b; simpa [DimensionKey.path] using this

def pairList (l : List (String × String)) : List String := l.flatMap fun p => [p.1, p.2]

theorem pairList_injective {l r : List (String × String)} (h : pairList l = pairList r) : l = r := by
  induction l generalizing r with
  | nil => cases r <;> simp_all [pairList]
  | cons p l ih =>
    cases r with
    | nil => simp [pairList] at h
    | cons q r =>
      simp only [pairList, List.flatMap_cons, List.cons_append, List.nil_append,
        List.cons.injEq] at h
      rw [ih h.2.2, Prod.ext h.1 h.2.1]

def PivotKey.path (k : PivotKey) : List (List String) :=
  [[k.statistic], [k.measure], pairList k.dimensions, [k.suffix]]

instance : Ord PivotKey := ⟨compareOn PivotKey.path⟩
instance : Std.TransOrd PivotKey := inferInstanceAs (Std.TransCmp (compareOn PivotKey.path))

instance : Std.LawfulEqOrd PivotKey where
  eq_of_compare {a b} h := by
    have := Std.LawfulEqCmp.compare_eq_iff_eq.1 (show compare a.path b.path = .eq from h)
    cases a; cases b
    simp only [PivotKey.path, List.cons.injEq, and_true] at this
    obtain ⟨rfl, rfl, same, rfl⟩ := this
    rw [pairList_injective same]

namespace Observation

def dimensionKeys (o : Observation) : List DimensionKey :=
  o.dimensions.keys.map (⟨o.statistic, o.measure, ·⟩)

end Observation

namespace Presentation

/-- The observation's value of a dimension, or a missing cell where the key is of another measure. -/
def dimensionCell (p : Presentation) (key : DimensionKey) (o : Observation) : Cell :=
  if o.statistic = key.statistic ∧ o.measure = key.measure then
    ((o.dimensions.find? key.dimension).map fun v => Cell.text (p.valueLabel key v)).getD .missing
  else .missing

def longColumns (p : Presentation) (l : List Observation) : List Column :=
  let column (name : String) (cell : Observation → Cell) : Column := .ofField name (l.map cell)
  [column Field.regionId fun o => .text o.region] ++
  (if p.showsNames then [column Field.regionName fun o => .text (p.names.label o.region)] else []) ++
  [column p.timeField fun o => .text o.time] ++
  (if 1 < p.query.data.statistics.size then
    [column Field.statistic fun o => .text (p.statisticLabel o.statistic)] else []) ++
  [column Field.measure fun o => .text (p.measureLabel o.statistic o.measure),
    column Field.value (·.value)]

def dimensionKeys (l : List Observation) : List DimensionKey :=
  (SortedSet.ofList (l.flatMap (·.dimensionKeys))).toList

/-- A row for each observation, in order. -/
def longFrame (p : Presentation) (l : List Observation) : Frame where
  index := none
  columns := p.longColumns l ++
    (dimensionKeys l).map fun key => ⟨.dimension key, "", l.map (p.dimensionCell key)⟩

/-- Wide rows are times instead of regions. -/
def timeRows (p : Presentation) : Bool := p.query.layout == .time

/-- The field that labels the rows of a wide layout. -/
def indexField (p : Presentation) : String :=
  if p.timeRows then p.timeField else Field.regionId

/-- The field that is spread over the columns of a wide layout. -/
def suffixField (p : Presentation) : String :=
  if p.timeRows then Field.regionId else p.timeField

def indexOf (p : Presentation) (o : Observation) : String := if p.timeRows then o.time else o.region

def suffixOf (p : Presentation) (o : Observation) : String := if p.timeRows then o.region else o.time

def pivotKey (p : Presentation) (o : Observation) : PivotKey :=
  ⟨o.statistic, o.measure, o.dimensions.entries, p.suffixOf o⟩

def indexValues (p : Presentation) (l : List Observation) : List String :=
  (SortedSet.ofList (l.map p.indexOf)).toList

def pivotKeys (p : Presentation) (l : List Observation) : List PivotKey :=
  (SortedSet.ofList (l.map p.pivotKey)).toList

/-- Of several observations for one cell the first counts. -/
def pivotColumn (p : Presentation) (l : List Observation) (index : List String) (key : PivotKey) :
    Column :=
  let own := l.filter fun o => p.pivotKey o == key
  ⟨.pivot key, "", index.map fun x =>
    ((own.find? fun o => p.indexOf o == x).map (·.value)).getD .missing⟩

def wideFrame (p : Presentation) (l : List Observation) : Frame :=
  let index := p.indexValues l
  { index := some (.ofField p.indexField (index.map .text))
    columns :=
      (if p.showsNames && !p.timeRows then
        [.ofField Field.regionName (index.map fun x => .text (p.names.label x))] else []) ++
      (p.pivotKeys l).map (p.pivotColumn l index) }

def layOut (p : Presentation) (t : BaseTable) : Frame :=
  match p.query.layout with
  | .long => p.longFrame t.observations
  | .region | .time => p.wideFrame t.observations

end Presentation

end RegionalTables
