import RegionalTables.Presentation.Header
import RegionalTables.StableSort

/-! The order of rows and columns. Rows follow the column asked for, then the layout's own fields,
then all others by header; an index decides before all of them. -/
namespace RegionalTables.Presentation

/-- The columns of the given fields first, in the order of the fields; then the others by header. -/
def arrange (fields : List String) (f : Frame) : List Column :=
  fields.filterMap f.column? ++
    sortOn (·.header) (f.columns.filter fun c => fields.all fun name => !c.isField name)

def sortField (p : Presentation) : String :=
  match p.query.sort with
  | .time => p.timeField
  | .region => Field.regionId
  | .measure => Field.measure
  | .value => Field.value

/-- The fields that order a layout by themselves. -/
def naturalFields (p : Presentation) : List String :=
  if p.timeRows then [p.timeField, Field.regionId, Field.measure]
  else [Field.regionId, p.timeField, Field.measure]

def sortColumns (p : Presentation) (f : Frame) : List Column :=
  arrange (p.sortField :: p.naturalFields.filter (· != p.sortField)) f

def rowKey (columns : List Column) (row : Nat) : List Cell.SortKey :=
  columns.map fun c => (c.cell row).sortKey

def rowOrder (p : Presentation) (f : Frame) : List Nat :=
  let order := sortOn (rowKey (p.sortColumns f)) (List.range f.length)
  match f.index with
  | some index => sortOn (fun row => (index.cell row).sortKey) order
  | none => order

def sorted (p : Presentation) (f : Frame) : Frame := f.permute (p.rowOrder f)

def leadingFields (p : Presentation) : List String :=
  match p.query.layout with
  | .long => [Field.regionId, Field.regionName, p.timeField, Field.measure, Field.value]
  | .region => [Field.regionId, Field.regionName, p.timeField, Field.measure]
  | .time => [p.timeField, Field.regionId, Field.regionName, Field.measure]

def withArrangedColumns (p : Presentation) (f : Frame) : Frame :=
  { f with columns := arrange p.leadingFields f }

end RegionalTables.Presentation
