import RegionalTables.Frame.Delimited
import RegionalTables.Proofs.Cell.Text
import RegionalTables.Proofs.Frame.Rows

/-! Delimited text read back. The reader takes one character at a time and knows the rules of quoted
fields only, not how the text was written; it gives the headers and then the row of every cell text,
whatever characters these hold. -/
namespace RegionalTables

namespace Delimited

/-- Where in a field the reader stands. -/
inductive Spot where
  | start
  | plain
  | quoted
  /-- After a quote in a quoted field: the field is over, or a second quote stands for one. -/
  | closing
  deriving DecidableEq

/-- What has been read, latest first. -/
structure Reader where
  spot : Spot
  field : List Char
  fields : List String
  records : List (List String)
  deriving DecidableEq

namespace Reader

/-- Before a record, after those read so far. -/
def between (records : List (List String)) : Reader := ⟨.start, [], [], records⟩

def push (r : Reader) (spot : Spot) (c : Char) : Reader := { r with spot, field := c :: r.field }

def endField (r : Reader) : Reader :=
  ⟨.start, [], String.ofList r.field.reverse :: r.fields, r.records⟩

def endRecord (r : Reader) : Reader := between (r.endField.fields.reverse :: r.records)

/-- A character where no field is quoted. Quotes and carriage returns stand in quoted fields only. -/
def unquoted? (delimiter : Char) (r : Reader) (c : Char) : Option Reader :=
  if c = delimiter then some r.endField
  else if c = '\n' then some r.endRecord
  else if c = '"' ∨ c = '\r' then none
  else some (r.push .plain c)

def step (delimiter : Char) (r : Reader) (c : Char) : Option Reader :=
  match r.spot with
  | .start => if c = '"' then some { r with spot := .quoted } else r.unquoted? delimiter c
  | .plain => r.unquoted? delimiter c
  | .quoted => some (if c = '"' then { r with spot := .closing } else r.push .quoted c)
  | .closing =>
    if c = '"' then some (r.push .quoted c)
    else if c = delimiter then some r.endField
    else if c = '\n' then some r.endRecord
    else none

/-- The records at the end of the text. The last one may lack its line feed. -/
def finish? (r : Reader) : Option (List (List String)) :=
  match r.spot, r.fields with
  | .quoted, _ => none
  | .start, [] => some r.records.reverse
  | _, _ => some r.endRecord.records.reverse

end Reader

/-- The records of a delimited text, if it is one. -/
def read? (delimiter : Char) (text : String) : Option (List (List String)) :=
  (text.toList.foldlM (Reader.step delimiter) (.between [])).bind Reader.finish?

open Reader

section

variable {delimiter : Char}

/-- Outside quotes a field ends at the delimiter. -/
theorem step_delimiter (quote : delimiter ≠ '"') {r : Reader} (outside : r.spot ≠ .quoted) :
    step delimiter r delimiter = some r.endField := by
  rw [step]
  cases spot : r.spot with
  | start | plain | closing => simp [quote, unquoted?]
  | quoted => contradiction

/-- Outside quotes a record ends at a line feed. -/
theorem step_feed (feed : delimiter ≠ '\n') {r : Reader} (outside : r.spot ≠ .quoted) :
    step delimiter r '\n' = some r.endRecord := by
  rw [step]
  cases spot : r.spot with
  | start | plain | closing => simp [feed.symm, unquoted?]
  | quoted => contradiction

/-- Characters that need no quotes are taken as they are. -/
theorem foldlM_plain {cs : List Char} (plain : ∀ c ∈ cs, needsQuotes delimiter c = false)
    {r : Reader} (before : r.spot = .start ∨ r.spot = .plain) :
    ∃ spot, spot ≠ .quoted ∧
      cs.foldlM (step delimiter) r = some { r with spot, field := cs.reverse ++ r.field } := by
  induction cs generalizing r with
  | nil =>
    refine ⟨r.spot, ?_, rfl⟩
    rcases before with start | plain <;> simp [*]
  | cons c cs ih =>
    obtain ⟨first, rest⟩ := List.forall_mem_cons.1 plain
    have taken : step delimiter r c = some (r.push .plain c) := by
      simp only [needsQuotes, Bool.or_eq_false_iff, beq_eq_false_iff_ne] at first
      rcases before with start | plain <;> simp [step, unquoted?, *]
    obtain ⟨spot, outside, read⟩ := ih rest (r := r.push .plain c) (.inr rfl)
    refine ⟨spot, outside, ?_⟩
    rw [List.foldlM_cons, taken]
    simpa [push] using read

/-- Inside quotes every character is taken as it is but for doubled quotes, which are taken once. -/
theorem foldlM_double (delimiter : Char) (cs : List Char) {r : Reader} (inside : r.spot = .quoted) :
    (cs.flatMap double).foldlM (step delimiter) r =
      some { r with field := cs.reverse ++ r.field } := by
  induction cs generalizing r with
  | nil => rfl
  | cons c cs ih =>
    have taken : (double c).foldlM (step delimiter) r = some (r.push .quoted c) := by
      by_cases quote : c = '"'
      · simp [double, quote, step, inside, push]
      · simp [double, quote, step, inside]
    rw [List.flatMap_cons, List.foldlM_append, taken]
    simpa [push, inside] using ih (r := r.push .quoted c) rfl

/-- A written field is read as its characters. The reader is then outside quotes. -/
theorem foldlM_field (delimiter : Char) (cs : List Char) {r : Reader} (start : r.spot = .start) :
    ∃ spot, spot ≠ .quoted ∧ (field delimiter cs).foldlM (step delimiter) r =
      some { r with spot, field := cs.reverse ++ r.field } := by
  cases special : cs.any (needsQuotes delimiter) with
  | false =>
    obtain ⟨spot, outside, read⟩ := foldlM_plain (by simpa using special) (.inl start)
    exact ⟨spot, outside, by simpa [field, special] using read⟩
  | true =>
    have opened : step delimiter r '"' = some { r with spot := .quoted } := by
      simp [step, start]
    have inner := foldlM_double delimiter cs (r := { r with spot := .quoted }) rfl
    refine ⟨.closing, by simp, ?_⟩
    rw [field, if_pos special, List.cons_append, List.foldlM_cons, opened]
    change ((cs.flatMap double ++ ['"']).foldlM (step delimiter) { r with spot := .quoted }) = _
    rw [List.foldlM_append, inner]
    simp [step]

theorem line_singleton (s : String) : line delimiter [s] = field delimiter s.toList ++ ['\n'] := by
  rw [line, List.map_singleton, List.intercalate_singleton]

theorem line_cons_cons (s t : String) (fields : List String) :
    line delimiter (s :: t :: fields) =
      field delimiter s.toList ++ delimiter :: line delimiter (t :: fields) := by
  simp [line, List.intercalate_cons_cons]

/-- A written line is read as one record with its fields. -/
theorem foldlM_line (quote : delimiter ≠ '"') (feed : delimiter ≠ '\n') {fields : List String}
    (filled : fields ≠ []) (done : List String) (records : List (List String)) :
    (line delimiter fields).foldlM (step delimiter) ⟨.start, [], done, records⟩ =
      some (between ((done.reverse ++ fields) :: records)) := by
  induction fields generalizing done with
  | nil => contradiction
  | cons s fields ih =>
    obtain ⟨spot, outside, read⟩ := foldlM_field delimiter s.toList
      (r := ⟨.start, [], done, records⟩) rfl
    simp only [List.append_nil] at read
    cases fields with
    | nil =>
      have ended := step_feed feed (r := ⟨spot, s.toList.reverse, done, records⟩) outside
      rw [line_singleton, List.foldlM_append, read]
      simp [ended, endRecord, endField]
    | cons t fields =>
      have ended := step_delimiter quote (r := ⟨spot, s.toList.reverse, done, records⟩) outside
      rw [line_cons_cons, List.foldlM_append, read]
      simpa [ended, endField] using ih (by simp) (s :: done)

/-- Written lines are read as their records. -/
theorem foldlM_lines (quote : delimiter ≠ '"') (feed : delimiter ≠ '\n')
    {records : List (List String)} (filled : ∀ fields ∈ records, fields ≠ [])
    (done : List (List String)) :
    (records.flatMap (line delimiter)).foldlM (step delimiter) (between done) =
      some (between (records.reverse ++ done)) := by
  induction records generalizing done with
  | nil => rfl
  | cons fields records ih =>
    obtain ⟨first, rest⟩ := List.forall_mem_cons.1 filled
    rw [List.flatMap_cons, List.foldlM_append, between, foldlM_line quote feed first]
    simpa using ih rest (fields :: done)

/-- Records that have fields are read back from their lines. -/
theorem read?_lines (quote : delimiter ≠ '"') (feed : delimiter ≠ '\n')
    {records : List (List String)} (filled : ∀ fields ∈ records, fields ≠ []) :
    read? delimiter (String.ofList (records.flatMap (line delimiter))) = some records := by
  rw [read?, String.toList_ofList, foldlM_lines quote feed filled]
  simp [between, finish?]

end

end Delimited

namespace Frame

/-- A frame with columns of one length is read back from its text: the headers, then for each row
the texts of its cells, which say what each cell holds. -/
theorem read?_delimited {f : Frame} {delimiter : Char} (columns : f.all ≠ [])
    (rect : f.Rectangular) (quote : delimiter ≠ '"') (feed : delimiter ≠ '\n') :
    ∃ rows, Delimited.read? delimiter (f.delimited delimiter) = some (f.headers :: rows) ∧
      f.RowsAs (fun _ x shown => shown = x.text?.getD "" ∧ x.Shows shown) rows := by
  have filled : ∀ fields ∈ f.records, fields ≠ [] := by
    simp [records, headers, rows, row, columns]
  have lines : f.records = f.headers ::
      (List.range f.length).map fun i => f.all.map fun c => (c.cell i).text?.getD "" := by
    simp [records, rows, row, Function.comp_def]
  refine ⟨_, ?_, rect.rowsAs_map fun _ x => ⟨rfl, x.shows_text⟩⟩
  rw [← lines]
  exact Delimited.read?_lines quote feed filled

end Frame

namespace Sample

/-- Every kind of cell, with quotes, delimiters and line ends in labels and texts. -/
def figures : Frame where
  index := some ⟨.field "year", "Jahr", [.text "2015", .text "2016"]⟩
  columns := [
    ⟨.field "value", "Wert, \"roh\"", [.integer (-42), .missing]⟩,
    ⟨.field "share", "Anteil", [.float (.ofDecimal false ⟨25, -2⟩), .float (.nan true)]⟩,
    ⟨.field "note", "Anmerkung", [.text "a,b", .text "\r\n"]⟩]

end Sample

namespace Frame

open Sample (figures)

theorem read?_delimited_of_figures :
    figures.all ≠ [] ∧ figures.Rectangular ∧ ',' ≠ '"' ∧ ',' ≠ '\n' ∧
      Delimited.read? ',' (figures.delimited ',') = some [
        ["Jahr", "Wert, \"roh\"", "Anteil", "Anmerkung"],
        ["2015", "-42", "0.25", "a,b"],
        ["2016", "", "NaN", "\r\n"]] ∧
      figures.RowsAs (fun _ x shown => shown = x.text?.getD "" ∧ x.Shows shown) [
        ["2015", "-42", "0.25", "a,b"], ["2016", "", "NaN", "\r\n"]] := by
  have columns : figures.all ≠ [] := by decide
  have rect : figures.Rectangular := by decide
  have quote : ',' ≠ '"' := by decide
  have feed : ',' ≠ '\n' := by decide
  have records : Delimited.read? ',' (figures.delimited ',') = some [
      ["Jahr", "Wert, \"roh\"", "Anteil", "Anmerkung"],
      ["2015", "-42", "0.25", "a,b"],
      ["2016", "", "NaN", "\r\n"]] := by
    decide +kernel
  obtain ⟨rows, read, own⟩ := read?_delimited columns rect quote feed
  rw [records] at read
  obtain ⟨_, rfl⟩ := List.cons.inj (Option.some.inj read)
  exact ⟨columns, rect, quote, feed, records, own⟩

example : figures.delimited ',' = "Jahr,\"Wert, \"\"roh\"\"\",Anteil,Anmerkung\n" ++
    "2015,-42,0.25,\"a,b\"\n2016,,NaN,\"\r\n\"\n" := by
  decide +kernel

end Frame

end RegionalTables
