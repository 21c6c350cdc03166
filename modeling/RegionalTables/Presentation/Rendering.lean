import RegionalTables.Frame.Delimited
import RegionalTables.Frame.Document
import RegionalTables.Presentation.Arrangement

/-! From a base table to the text of an answer. -/
namespace RegionalTables

/-- One table in every format. -/
structure Renderings where
  csv : String
  tsv : String
  json : String
  deriving DecidableEq

namespace Presentation

/-- The finished table: laid out, labelled, coerced, sorted, columns in order. -/
def frame (p : Presentation) (t : BaseTable) : Frame :=
  p.withArrangedColumns (p.sorted ((p.labelled (p.layOut t)).mapCells Cell.coerce))

def encode (p : Presentation) (format : Format) (f : Frame) : String :=
  match format with
  | .csv => f.delimited p.query.delimiter.char
  | .tsv => f.delimited '\t'
  | .json => f.jsonText

/-- The table in the format asked for. -/
def render (p : Presentation) (t : BaseTable) : String := p.encode p.query.format (p.frame t)

def renderAll (p : Presentation) (t : BaseTable) : Renderings :=
  let f := p.frame t
  ⟨p.encode .csv f, p.encode .tsv f, p.encode .json f⟩

end Presentation

end RegionalTables
