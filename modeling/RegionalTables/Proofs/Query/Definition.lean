import RegionalTables.Proofs.Fact
import RegionalTables.Proofs.Json.Document
import RegionalTables.Proofs.Json.Reading
import RegionalTables.Proofs.Text.Utf8
import RegionalTables.Query.Key

/-! What a definition tells about its query. Each field is written so that it can be told from its
text, so queries of one definition differ at most in their source, and queries of one data
definition at most in their presentation. -/
namespace RegionalTables

open Json

namespace Sha256

theorem hexDigit_injective {m n : Nat} (small : m < 16) (small' : n < 16)
    (same : hexDigit m = hexDigit n) : m = n := by
  have read : Tree.hexValue? (Json.hexDigit m) = Tree.hexValue? (Json.hexDigit n) := congrArg _ same
  rw [hexValue?_hexDigit small, hexValue?_hexDigit small'] at read
  exact Option.some.inj read

theorem hex_injective {a b : List UInt8} (same : hex a = hex b) : a = b := by
  have digits := String.ofList_inj.1 same
  clear same
  induction a generalizing b with
  | nil =>
    cases b with
    | nil => rfl
    | cons y b => contradiction
  | cons x a ih =>
    cases b with
    | nil => contradiction
    | cons y b =>
      simp only [List.flatMap_cons, List.cons_append, List.nil_append, List.cons.injEq] at digits
      obtain ⟨high, low, rest⟩ := digits
      have left := x.toNat_lt
      have right := y.toNat_lt
      have first := hexDigit_injective (by omega) (by omega) high
      have second := hexDigit_injective (by omega) (by omega) low
      have byte : x = y := UInt8.toNat_inj.1 (by omega)
      rw [byte, ih rest]

theorem slash_not_mem_hex (bytes : List UInt8) : '/' ∉ (hex bytes).toList := by
  have digit : ∀ n ∈ List.range 16, '/' ≠ hexDigit n := by decide
  intro slash
  rw [hex, String.toList_ofList] at slash
  obtain ⟨x, _, nibble⟩ := List.mem_flatMap.1 slash
  have small := x.toNat_lt
  simp only [List.mem_cons, List.not_mem_nil, or_false] at nibble
  rcases nibble with high | low
  · exact digit _ (List.mem_range.2 (by omega)) high
  · exact digit _ (List.mem_range.2 (by omega)) low

end Sha256

theorem TimeField.name_injective {a b : TimeField} (same : a.name = b.name) : a = b := by
  cases a <;> cases b <;> revert same <;> decide

theorem Layout.name_injective {a b : Layout} (same : a.name = b.name) : a = b := by
  cases a <;> cases b <;> revert same <;> decide

theorem Format.name_injective {a b : Format} (same : a.name = b.name) : a = b := by
  cases a <;> cases b <;> revert same <;> decide

theorem Labels.text_injective {a b : Labels} (same : a.text = b.text) : a = b := by
  cases a <;> cases b <;> revert same <;> decide

theorem SortKey.name_injective {a b : SortKey} (same : a.name = b.name) : a = b := by
  cases a <;> cases b <;> revert same <;> decide

theorem Delimiter.char_injective {a b : Delimiter}
    (same : String.singleton a.char = String.singleton b.char) : a = b := by
  cases a <;> cases b <;> revert same <;> decide

namespace TimeChoice

theorem isDigit_of_mem_year {y : UInt16} : ∀ c ∈ (toString y.toNat).toList, c.isDigit = true := by
  intro c member
  rw [Nat.toString_eq_repr, Nat.toList_repr] at member
  exact Nat.isDigit_of_mem_toDigits (by decide) (by decide) member

theorem year_injective {y z : UInt16} (same : toString y.toNat = toString z.toNat) : y = z :=
  UInt16.toNat_inj.1 (Decimal.toString_injective same)

theorem isDigit_of_mem_bound {b : Option UInt16} : ∀ c ∈ (bound b).toList, c.isDigit = true := by
  cases b with
  | none => exact fun c member => absurd member (by simp [bound])
  | some y => exact isDigit_of_mem_year

theorem bound_injective {b c : Option UInt16} (same : bound b = bound c) : b = c := by
  have filled (y : UInt16) : bound (some y) ≠ bound none := by
    intro empty
    have digits := congrArg String.toList empty
    simp [bound, Nat.toDigits_ne_nil] at digits
  cases b with
  | none =>
    cases c with
    | none => rfl
    | some z => exact absurd same.symm (filled z)
  | some y =>
    cases c with
    | none => exact absurd same (filled y)
    | some z => exact congrArg some (year_injective same)

/-- A text that is no number stands for no year. -/
theorem year_ne {y : UInt16} {s : String} {c : Char} (member : c ∈ s.toList)
    (other : c.isDigit = false) : toString y.toNat ≠ s := by
  rintro rfl
  rw [isDigit_of_mem_year c member] at other
  contradiction

theorem colon_not_mem_bound (b : Option UInt16) : ':' ∉ (bound b).toList := by
  intro colon
  exact absurd (isDigit_of_mem_bound ':' colon) (by decide)

theorem range_injective {low high low' high' : Option UInt16}
    (same : (range low high).text = (range low' high').text) : range low high = range low' high' := by
  have chars : (bound low).toList ++ ':' :: (bound high).toList =
      (bound low').toList ++ ':' :: (bound high').toList := by
    simpa [text] using congrArg String.toList same
  have back := Text.append_cons_right_cancel (colon_not_mem_bound high) (colon_not_mem_bound high') chars
  rw [back, List.append_cancel_right_eq] at chars
  rw [bound_injective (String.toList_inj.1 chars), bound_injective (String.toList_inj.1 back)]

theorem colon_mem_range (low high : Option UInt16) : ':' ∈ (range low high).text.toList := by
  simp [text]

theorem text_injective {a b : TimeChoice} (same : a.text = b.text) : a = b := by
  have noDigit : ':'.isDigit = false := by decide
  match a, b with
  | .all, .all | .last, .last => rfl
  | .all, .last | .last, .all => exact absurd same (by decide)
  | .year y, .year z => rw [year_injective same]
  | .year y, .all => exact absurd same (year_ne (c := 'a') (by decide) (by decide))
  | .all, .year z => exact absurd same.symm (year_ne (c := 'a') (by decide) (by decide))
  | .year y, .last => exact absurd same (year_ne (c := 'l') (by decide) (by decide))
  | .last, .year z => exact absurd same.symm (year_ne (c := 'l') (by decide) (by decide))
  | .range low high, .range low' high' => exact range_injective same
  | .range low high, .year z => exact absurd same.symm (year_ne (colon_mem_range low high) noDigit)
  | .year y, .range low high => exact absurd same (year_ne (colon_mem_range low high) noDigit)
  | .range low high, .all | .range low high, .last =>
    have colon := colon_mem_range low high
    rw [same] at colon
    exact absurd colon (by decide)
  | .all, .range low high | .last, .range low high =>
    have colon := colon_mem_range low high
    rw [← same] at colon
    exact absurd colon (by decide)

end TimeChoice

namespace Selection

theorem documentOfBreakdown_injective (b c : Breakdown)
    (same : documentOfBreakdown b = documentOfBreakdown c) : b = c := by
  apply SortedMap.map_injective _ (Document.object_injective same)
  intro values values' same
  exact SortedSet.ext (Document.strings_injective same)

theorem documentOfMeasures_injective (m n : MeasureChoice)
    (same : documentOfMeasures m = documentOfMeasures n) : m = n := by
  apply SortedMap.map_injective _ (Document.object_injective same)
  exact documentOfBreakdown_injective

theorem document_injective {s t : Selection} (same : s.document = t.document) : s = t := by
  have statistics : s.statistics = t.statistics := by
    apply SortedMap.map_injective _ (Document.object_injective same)
    exact documentOfMeasures_injective
  cases s
  cases t
  cases statistics
  rfl

end Selection

theorem RegionChoice.document_injective {a b : RegionChoice} (same : a.document = b.document) :
    a = b := by
  have value := congrArg Document.value same
  cases a with
  | all =>
    cases b with
    | all => rfl
    | ids _ => contradiction
  | ids regions =>
    cases b with
    | all => contradiction
    | ids regions' => rw [SortedSet.ext (Document.strings_injective same)]

theorem LevelChoice.document_injective {a b : LevelChoice} (same : a.document = b.document) :
    a = b := by
  have value := congrArg Document.value same
  cases a with
  | all =>
    cases b with
    | all => rfl
    | levels _ => contradiction
  | levels numbers =>
    cases b with
    | all => contradiction
    | levels numbers' =>
      have lists := Document.array_injective same
      rw [SortedSet.ext ((List.map_inj_right fun _ _ => Document.byte_injective).1 lists)]

namespace Query

theorem parent_injective {q r : Query} (same : q.parentDocument = r.parentDocument) :
    q.parent = r.parent := by
  have value := congrArg Document.value same
  simp only [parentDocument] at same value
  cases left : q.parent with
  | none =>
    cases right : r.parent with
    | none => rfl
    | some _ => simp [left, right, Document.null, Document.string] at value
  | some _ =>
    cases right : r.parent with
    | none => simp [left, right, Document.null, Document.string] at value
    | some _ =>
      simp only [left, right] at same
      rw [Document.string_injective same]

/-- Queries of one definition differ at most in their source. -/
theorem eq_of_definition {q r : Query} (same : q.definition = r.definition) :
    { q with source := r.source } = r := by
  have members := congrArg SortedMap.entries (Document.object_injective same)
  simp only [SortedMap.ofAscending, List.cons.injEq, Prod.mk.injEq, true_and, and_true] at members
  obtain ⟨data, delimiter, timeField, format, labels, layout, level, parent, region, sort, time⟩ :=
    members
  rw [Selection.document_injective data,
    Delimiter.char_injective (Document.string_injective delimiter),
    TimeField.name_injective (Document.string_injective timeField),
    Format.name_injective (Document.string_injective format),
    Labels.text_injective (Document.string_injective labels),
    Layout.name_injective (Document.string_injective layout),
    LevelChoice.document_injective level, parent_injective parent,
    RegionChoice.document_injective region, SortKey.name_injective (Document.string_injective sort),
    TimeChoice.text_injective (Document.string_injective time)]

/-- The data of one query in the presentation of another. -/
def presentedAs (q r : Query) : Query := { q with
  delimiter := r.delimiter
  format := r.format
  labels := r.labels
  layout := r.layout
  sort := r.sort
  source := r.source }

/-- Queries of one data definition differ at most in their presentation. -/
theorem eq_of_dataDefinition {q r : Query} (same : q.dataDefinition = r.dataDefinition) :
    q.presentedAs r = r := by
  have members := congrArg SortedMap.entries (Document.object_injective same)
  simp only [SortedMap.ofAscending, List.cons.injEq, Prod.mk.injEq, true_and, and_true] at members
  obtain ⟨data, timeField, level, parent, region, time⟩ := members
  rw [presentedAs, Selection.document_injective data,
    TimeField.name_injective (Document.string_injective timeField),
    LevelChoice.document_injective level, parent_injective parent,
    RegionChoice.document_injective region, TimeChoice.text_injective (Document.string_injective time)]

end Query

/-! Depth. -/

theorem Selection.depth_document_le (s : Selection) : (Tree.ofValue s.document.value).depth ≤ 4 := by
  apply Document.depth_object_le
  intro e member
  obtain ⟨e, _, rfl⟩ := List.mem_map.1 member
  apply Document.depth_object_le
  intro e member
  obtain ⟨e, _, rfl⟩ := List.mem_map.1 member
  apply Document.depth_object_le
  intro e member
  obtain ⟨e, _, rfl⟩ := List.mem_map.1 member
  exact Document.depth_strings_le _

theorem RegionChoice.depth_document_le (r : RegionChoice) :
    (Tree.ofValue r.document.value).depth ≤ 4 := by
  cases r with
  | all => exact Nat.zero_le 4
  | ids regions => exact Nat.le_trans (Document.depth_strings_le _) (by decide)

theorem LevelChoice.depth_document_le (l : LevelChoice) :
    (Tree.ofValue l.document.value).depth ≤ 4 := by
  cases l with
  | all => exact Nat.zero_le 4
  | levels numbers =>
    apply Nat.le_trans (Document.depth_array_le (n := 0) _) (by decide)
    intro d member
    obtain ⟨n, _, rfl⟩ := List.mem_map.1 member
    exact Nat.le_refl 0

namespace Query

theorem depth_parentDocument_le (q : Query) : (Tree.ofValue q.parentDocument.value).depth ≤ 4 := by
  rw [parentDocument]
  cases q.parent <;> exact Nat.zero_le 4

theorem depth_definition_le (q : Query) : (Tree.ofValue q.definition.value).depth ≤ 5 := by
  apply Document.depth_object_le
  have string (s : String) : (Tree.ofValue (Document.string s).value).depth ≤ 4 := Nat.zero_le 4
  simp only [SortedMap.ofAscending, List.forall_mem_cons]
  exact ⟨q.data.depth_document_le, string _, string _, string _, string _, string _,
    q.level.depth_document_le, q.depth_parentDocument_le, q.region.depth_document_le, string _,
    string _, by simp⟩

theorem depth_dataDefinition_le (q : Query) : (Tree.ofValue q.dataDefinition.value).depth ≤ 5 := by
  apply Document.depth_object_le
  have string (s : String) : (Tree.ofValue (Document.string s).value).depth ≤ 4 := Nat.zero_le 4
  simp only [SortedMap.ofAscending, List.forall_mem_cons]
  exact ⟨q.data.depth_document_le, string _, q.level.depth_document_le, q.depth_parentDocument_le,
    q.region.depth_document_le, string _, by simp⟩

end Query

/-! Keys. -/

/-- No two of the messages share their digest. -/
def Sha256.CollisionFree (messages : List (List UInt8)) : Prop :=
  ∀ a ∈ messages, ∀ b ∈ messages, digest a = digest b → a = b

instance (messages : List (List UInt8)) : Decidable (Sha256.CollisionFree messages) :=
  inferInstanceAs (Decidable (∀ a ∈ messages, ∀ b ∈ messages, _ → a = b))

namespace Query

/-- What the keys of a query are digests of. -/
def messages (q : Query) : List (List UInt8) :=
  [Text.Utf8.encode q.definition.value.chars, Text.Utf8.encode q.dataDefinition.value.chars]

variable {messages : List (List UInt8)} (free : Sha256.CollisionFree messages)

include free

theorem eq_of_keyOf {d e : Document} (left : Text.Utf8.encode d.value.chars ∈ messages)
    (right : Text.Utf8.encode e.value.chars ∈ messages) (same : keyOf d = keyOf e) : d = e := by
  have bytes := free _ left _ right (Sha256.hex_injective same)
  exact Document.chars_injective (Text.Utf8.encode_injective bytes)

variable {q r : Query} (left : ∀ m ∈ q.messages, m ∈ messages)
  (right : ∀ m ∈ r.messages, m ∈ messages)

include left right

theorem eq_of_renderKey (same : q.renderKey = r.renderKey) : { q with source := r.source } = r := by
  apply eq_of_definition
  apply eq_of_keyOf free _ _ same
  · exact left _ List.mem_cons_self
  · exact right _ List.mem_cons_self

theorem eq_of_dataKey (same : q.dataKey = r.dataKey) : q.presentedAs r = r := by
  apply eq_of_dataDefinition
  apply eq_of_keyOf free _ _ same
  · exact left _ (List.mem_cons_of_mem _ List.mem_cons_self)
  · exact right _ (List.mem_cons_of_mem _ List.mem_cons_self)

end Query

end RegionalTables
