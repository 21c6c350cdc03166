import Mathlib.Data.List.Nodup
import RegionalTables.Frame.Document
import RegionalTables.Json.Shape
import RegionalTables.Proofs.Cell.Written
import RegionalTables.Proofs.Frame.Rows

/-! The JSON form of a frame read back: the header and type of every column, and the cells of every
row under the headers, in column order. Only a number that is not finite is lost. The type of a
column is the narrowest one that all its cells have. -/
namespace RegionalTables

open Json Json.Shape

/-- A member whose key no other member has is the one found under it. -/
theorem Json.Shape.named?_of_nodup {members : List (Option String × Tree)} {key : String} {t : Tree}
    (once : (members.map (·.1)).Nodup) (member : (some key, t) ∈ members) :
    named? members [key] = some (some t) := by
  have single : members.filter (fun m => [key].any fun name => m.1 == some name) =
      [(some key, t)] := by
    induction members with
    | nil => contradiction
    | cons m members ih =>
      obtain ⟨apart, once⟩ := List.nodup_cons.1 once
      rcases List.mem_cons.1 member with rfl | member
      · have others : ∀ m ∈ members, m.1 ≠ some key := fun m own same =>
          apart (List.mem_map.2 ⟨m, own, same⟩)
        simpa using others
      · have other : m.1 ≠ some key := fun same =>
          apart (List.mem_map.2 ⟨_, member, same.symm⟩)
        simpa [other] using ih once member
  rw [named?, single]

namespace Cell

/-- What a reader of documents sees of a cell. -/
def tree : Cell → Tree
  | missing => .null
  | integer n => .number (some (.integer n.toInt))
  | float x => if x.isFinite then .number (some (.float x)) else .null
  | text s => .string (some s)

theorem ofValue_written (c : Cell) : Tree.ofValue c.written.value = c.tree := by
  cases c with
  | missing | integer n | text s => rfl
  | float x =>
    simp only [written, tree]
    split <;> rfl

theorem isMissing_iff (c : Cell) : c.isMissing = true ↔ c = missing := by
  cases c <;> simp [isMissing]

theorem isInteger_iff (c : Cell) : c.isInteger = true ↔ ∃ n, c = integer n := by
  cases c <;> simp [isInteger]

theorem isNumber_iff (c : Cell) :
    c.isNumber = true ↔ (∃ n, c = integer n) ∨ ∃ x, c = float x := by
  cases c <;> simp [isNumber]

theorem isText_iff (c : Cell) : c.isText = true ↔ ∃ s, c = text s := by
  cases c <;> simp [isText]

end Cell

namespace Column

/-- Some cells are there, and all of these are of one kind. -/
def Holds (c : Column) (Kind : Cell → Prop) : Prop :=
  (∃ x ∈ c.cells, x ≠ .missing) ∧ ∀ x ∈ c.cells, x ≠ .missing → Kind x

def OfIntegers (c : Column) : Prop := c.Holds fun x => ∃ n, x = .integer n

/-- All cells that are there are numbers, and not all of them integers. -/
def OfNumbers (c : Column) : Prop :=
  (c.Holds fun x => (∃ n, x = .integer n) ∨ ∃ y, x = .float y) ∧ ∃ y, .float y ∈ c.cells

def OfTexts (c : Column) : Prop := c.Holds fun x => ∃ s, x = .text s

end Column

theorem ColumnType.name_injective {t u : ColumnType} (same : t.name = u.name) : t = u := by
  cases t <;> cases u <;> simp_all [name]

/-- Whether a type is the right one for a column, said of each type on its own. -/
def ColumnType.Describes (c : Column) : ColumnType → Prop
  | integer => c.OfIntegers
  | number => c.OfNumbers
  | string => c.OfTexts
  | any => ¬ c.OfIntegers ∧ ¬ c.OfNumbers ∧ ¬ c.OfTexts

namespace Column

def present (c : Column) : List Cell := c.cells.filter fun x => !x.isMissing

theorem mem_present {c : Column} {x : Cell} : x ∈ c.present ↔ x ∈ c.cells ∧ x ≠ .missing := by
  rw [present, List.mem_filter, Bool.not_eq_true', Bool.eq_false_iff, Ne, Cell.isMissing_iff]

theorem holds_iff {c : Column} {kind : Cell → Bool} {Kind : Cell → Prop}
    (same : ∀ x, kind x = true ↔ Kind x) :
    c.Holds Kind ↔ c.present.isEmpty = false ∧ c.present.all kind = true := by
  simp only [Holds, List.isEmpty_eq_false_iff_exists_mem, List.all_eq_true, mem_present, same,
    and_imp]

/-- Numbers that are not all integers. -/
theorem ofNumbers_iff {c : Column} : c.OfNumbers ↔ c.present.isEmpty = false ∧
    c.present.all Cell.isNumber = true ∧ c.present.all Cell.isInteger = false := by
  rw [OfNumbers, holds_iff Cell.isNumber_iff, and_assoc]
  refine and_congr_right fun _ => and_congr_right fun numbers => ?_
  rw [List.all_eq_false]
  constructor
  · rintro ⟨y, own⟩
    exact ⟨_, mem_present.2 ⟨own, by simp⟩, by simp [Cell.isInteger]⟩
  · rintro ⟨x, own, fraction⟩
    obtain ⟨n, rfl⟩ | ⟨y, rfl⟩ := (Cell.isNumber_iff x).1 (List.all_eq_true.1 numbers x own)
    · simp [Cell.isInteger] at fraction
    · exact ⟨y, (mem_present.1 own).1⟩

theorem describes_type (c : Column) : c.type.Describes c := by
  have integers := holds_iff (c := c) Cell.isInteger_iff
  have texts := holds_iff (c := c) Cell.isText_iff
  have numbers := ofNumbers_iff (c := c)
  change (if c.present.isEmpty then ColumnType.any
    else if c.present.all Cell.isInteger then .integer
    else if c.present.all Cell.isNumber then .number
    else if c.present.all Cell.isText then .string else .any).Describes c
  split_ifs <;> simp_all [ColumnType.Describes, OfIntegers, OfTexts]

theorem Holds.exists_both {c : Column} {K L : Cell → Prop} (left : c.Holds K) (right : c.Holds L) :
    ∃ x, K x ∧ L x := by
  obtain ⟨⟨x, own, there⟩, each⟩ := left
  exact ⟨x, each x own there, right.2 x own there⟩

/-- No two types are right for one column. -/
theorem describes_unique {c : Column} {t u : ColumnType} (left : t.Describes c)
    (right : u.Describes c) : t = u := by
  have numbers : ¬ (c.OfIntegers ∧ c.OfNumbers) := by
    rintro ⟨⟨_, integers⟩, _, y, own⟩
    obtain ⟨n, same⟩ := integers _ own (by simp)
    contradiction
  have integerTexts : ¬ (c.OfIntegers ∧ c.OfTexts) := by
    rintro ⟨integers, texts⟩
    obtain ⟨x, ⟨n, rfl⟩, s, same⟩ := integers.exists_both texts
    contradiction
  have numberTexts : ¬ (c.OfNumbers ∧ c.OfTexts) := by
    rintro ⟨⟨numbers, _⟩, texts⟩
    obtain ⟨x, ⟨n, rfl⟩ | ⟨y, rfl⟩, s, same⟩ := numbers.exists_both texts <;> contradiction
  cases t <;> cases u <;> simp_all [ColumnType.Describes]

/-- The name of a type tells it. -/
theorem name_type_eq_iff {c : Column} {t : ColumnType} :
    c.type.name = t.name ↔ t.Describes c := by
  constructor
  · intro same
    rw [← ColumnType.name_injective same]
    exact c.describes_type
  · intro right
    rw [describes_unique c.describes_type right]

end Column

namespace Frame

/-- The written form with missing cells for numbers that are not finite. -/
def writtenValue (f : Frame) : Value := .object [
  ("schema", .array f.schema),
  ("data", .array ((List.range f.length).map fun i =>
    .object (f.all.map fun c => (c.header, (c.cell i).written.value))))]

theorem chars_writtenValue (f : Frame) : f.writtenValue.chars = f.toValue.chars := by
  have rows := Value.chars_array_congr (l := List.range f.length) (g := f.rowValue)
    (f := fun i => .object (f.all.map fun c => (c.header, (c.cell i).written.value)))
    fun i _ => Value.chars_object_congr fun c _ => (c.cell i).chars_written
  simp only [writtenValue, toValue, Value.chars, Value.membersTail, rows]

theorem writable_writtenValue (f : Frame) : f.writtenValue.Writable := by
  have schema : Value.Writable (.array f.schema) := by
    rw [Value.writable_array_iff]
    intro v member
    obtain ⟨c, _, rfl⟩ := List.mem_map.1 member
    exact ⟨trivial, trivial, trivial⟩
  have data : Value.Writable (.array ((List.range f.length).map fun i =>
      .object (f.all.map fun c => (c.header, (c.cell i).written.value)))) := by
    rw [Value.writable_array_iff]
    intro v member
    obtain ⟨i, _, rfl⟩ := List.mem_map.1 member
    rw [Value.writable_object_iff]
    intro m member
    obtain ⟨c, _, rfl⟩ := List.mem_map.1 member
    exact Cell.writable_value (c.cell i).finite_written
  exact ⟨schema, data, trivial⟩

/-- A column in the schema. -/
def columnTree (c : Column) : Tree := .object [
  (some "name", .string (some c.header)), (some "type", .string (some c.type.name))]

theorem ofValue_writtenValue (f : Frame) : Tree.ofValue f.writtenValue = .object [
    (some "schema", .array (f.all.map columnTree)),
    (some "data", .array (((List.range f.length).map fun i =>
      f.all.map fun c => (some c.header, (c.cell i).tree)).map .object))] := by
  simp [writtenValue, schema, Tree.ofValue, ofItems_eq_map, ofMembers_eq_map, Cell.ofValue_written,
    columnTree, Function.comp_def]

/-- The JSON text of a frame with columns of one length under different headers is read as the
list of its columns and an object for each row; each cell is found under its column's header. -/
theorem read?_jsonText {f : Frame} (rect : f.Rectangular) (distinct : f.headers.Nodup) :
    (∃ rows : List (List (Option String × Tree)),
      Tree.read? f.jsonText.toList = some (.object [
        (some "schema", .array (f.all.map columnTree)), (some "data", .array (rows.map .object))]) ∧
      f.RowsAs (fun c x member => member = (some c.header, x.tree)) rows ∧
      ∀ (i : Nat) row, rows[i]? = some row → ∀ c ∈ f.all, ∃ x : Cell, c.cells[i]? = some x ∧
        named? row [c.header] = some (some x.tree)) ∧
    ∀ c ∈ f.all, ∀ t : ColumnType, c.type.name = t.name ↔ t.Describes c := by
  have read : Tree.read? f.jsonText.toList = some (Tree.ofValue f.writtenValue) := by
    rw [jsonText, Value.text, String.toList_ofList, ← chars_writtenValue]
    exact read?_chars f.writable_writtenValue
  have rows : f.RowsAs (fun c x member => member = (some c.header, x.tree))
      ((List.range f.length).map fun i => f.all.map fun c => (some c.header, (c.cell i).tree)) :=
    rect.rowsAs_map (g := fun c (x : Cell) => (some c.header, x.tree)) fun _ _ => rfl
  refine ⟨⟨_, by rw [read, ofValue_writtenValue], rows, ?_⟩, fun c _ t => Column.name_type_eq_iff⟩
  intro i row given c own
  have row := rows.row i row given
  have keys := row.map_eq (g := (·.1)) (h := fun c => some c.header) fun c x m made => by rw [made]
  have once : (f.headers.map some).Nodup := distinct.map fun _ _ => Option.some.inj
  rw [headers, List.map_map] at once
  obtain ⟨m, member, x, there, rfl⟩ := row.exists_of_mem own
  exact ⟨x, there, named?_of_nodup (by rw [keys]; exact once) member⟩

open Sample (notes)

theorem read?_jsonText_of_notes :
    notes.Rectangular ∧ notes.headers.Nodup ∧
      (∃ rows : List (List (Option String × Tree)),
        Tree.read? notes.jsonText.toList = some (.object [
          (some "schema", .array (notes.all.map columnTree)),
          (some "data", .array (rows.map .object))]) ∧ rows.length = 2) ∧
      ∀ c ∈ notes.all, c.header = "Anmerkung" → c.OfTexts := by
  have rect : notes.Rectangular := by decide
  have distinct : notes.headers.Nodup := by decide
  obtain ⟨⟨rows, read, own, _⟩, types⟩ := read?_jsonText rect distinct
  refine ⟨rect, distinct, ⟨rows, read, own.length⟩, fun c member labels => ?_⟩
  have typed : ∀ c ∈ notes.all, c.header = "Anmerkung" → c.type.name = ColumnType.string.name := by
    decide
  exact (types c member .string).1 (typed c member labels)

end Frame

end RegionalTables
