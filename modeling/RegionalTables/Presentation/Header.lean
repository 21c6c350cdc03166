import RegionalTables.Presentation.Layout

/-! Column headers. Display names need not be unique, so a header that several columns share is
told apart by the statistic. -/
namespace RegionalTables.Presentation

def fieldHeader (p : Presentation) (name : String) : String :=
  if p.showsNames then Field.displayName name else name

def dimensionHeader (p : Presentation) (key : DimensionKey) : String :=
  p.label (key.statistic ++ ":" ++ key.measure ++ "(" ++ key.dimension ++ ")")
    (p.measureName key.statistic key.measure ++ ": " ++ p.dimensionName key)

def dimensionsText (dimensions : List (String × String)) : String :=
  if dimensions.isEmpty then ""
  else "(" ++ ",".intercalate (dimensions.map fun (d, v) => d ++ ":" ++ v) ++ ")"

def pivotId (p : Presentation) (key : PivotKey) : String :=
  key.statistic ++ ":" ++ key.measure ++ dimensionsText key.dimensions ++ "-" ++ p.suffixField ++
    ":" ++ key.suffix

def suffixName (p : Presentation) (suffix : String) : String :=
  if p.timeRows then p.names.label suffix else suffix

def pivotName (p : Presentation) (key : PivotKey) : String :=
  let measure := p.measureName key.statistic key.measure
  let suffix := p.suffixName key.suffix
  let values := key.dimensions.map fun (d, v) => p.valueName ⟨key.statistic, key.measure, d⟩ v
  if values.isEmpty then measure ++ " " ++ suffix
  else measure ++ ": " ++ ", ".intercalate values ++ ", " ++ suffix

def header (p : Presentation) : ColumnKey → String
  | .field name => p.fieldHeader name
  | .dimension key => p.dimensionHeader key
  | .pivot key => p.label (p.pivotId key) (p.pivotName key)

def withHeader (p : Presentation) (c : Column) : Column := { c with header := p.header c.key }

/-- Names the statistic in a header that occurs more than once in `headers`. -/
def tellApart (headers : List String) (c : Column) : Column :=
  if headers.count c.header < 2 then c
  else
    match c.key.statistic? with
    | some statistic => { c with header := c.header ++ " [" ++ statistic ++ "]" }
    | none => c

def labelled (p : Presentation) (f : Frame) : Frame :=
  let f := f.mapColumns p.withHeader
  { f with columns := f.columns.map (tellApart (f.columns.map (·.header))) }

end RegionalTables.Presentation
