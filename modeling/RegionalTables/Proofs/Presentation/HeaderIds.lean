import RegionalTables.Proofs.Presentation.Header
import RegionalTables.Proofs.Query.Entry

/-! Headers that show ids. An id is read back from its header, and from the id what the column is of,
as long as no part of it looks like what separates the parts. A dash in a token is none of that. So all
headers are distinct to begin with and none has to be told apart. -/
namespace RegionalTables

namespace Text

/-- Nothing in the text stands between the parts of an id or the words of a header. -/
structure Unseparated (text : String) : Prop where
  space : ' ' ∉ text.toList
  comma : ',' ∉ text.toList
  colon : ':' ∉ text.toList
  opening : '(' ∉ text.toList
  closing : ')' ∉ text.toList

instance (text : String) : Decidable (Unseparated text) :=
  decidable_of_iff (' ' ∉ text.toList ∧ ',' ∉ text.toList ∧ ':' ∉ text.toList ∧ '(' ∉ text.toList ∧
      ')' ∉ text.toList)
    ⟨fun ⟨space, comma, colon, brackets⟩ => ⟨space, comma, colon, brackets.1, brackets.2⟩,
      fun plain => ⟨plain.space, plain.comma, plain.colon, plain.opening, plain.closing⟩⟩

theorem unseparated_of_isToken {text : String} (token : Entry.isToken text.toList = true) :
    Unseparated text where
  space := Entry.not_mem_of_isToken token rfl
  comma := Entry.not_mem_of_isToken token rfl
  colon := Entry.not_mem_of_isToken token rfl
  opening := Entry.not_mem_of_isToken token rfl
  closing := Entry.not_mem_of_isToken token rfl

end Text

open Text (Unseparated unseparated_of_isToken)

/-- A dimension is a token, and its value has no separator. -/
def PlainPair (d : String × String) : Prop :=
  Entry.isToken d.1.toList = true ∧ Unseparated d.2

instance (d : String × String) : Decidable (PlainPair d) :=
  inferInstanceAs (Decidable (Entry.isToken d.1.toList = true ∧ Unseparated d.2))

structure DimensionKey.Plain (key : DimensionKey) : Prop where
  statistic : Entry.isToken key.statistic.toList = true
  measure : Entry.isToken key.measure.toList = true
  dimension : Entry.isToken key.dimension.toList = true

structure PivotKey.Plain (key : PivotKey) : Prop where
  statistic : Entry.isToken key.statistic.toList = true
  measure : Entry.isToken key.measure.toList = true
  dimensions : ∀ d ∈ key.dimensions, PlainPair d
  suffix : Unseparated key.suffix

/-- Columns of fields and of data that is named by tokens. -/
def ColumnKey.Plain : ColumnKey → Prop
  | .field name => name ∈ Field.names
  | .dimension key => key.Plain
  | .pivot key => key.Plain

theorem ColumnKey.field_or_data (a : ColumnKey) :
    (∃ name, a = .field name) ∨ a.statistic?.isSome = true := by
  cases a with
  | field name => exact .inl ⟨name, rfl⟩
  | dimension | pivot => exact .inr rfl

structure Observation.Plain (o : Observation) : Prop where
  statistic : Entry.isToken o.statistic.toList = true
  measure : Entry.isToken o.measure.toList = true
  dimensions : ∀ d ∈ o.dimensions.entries, PlainPair d
  region : Unseparated o.region
  time : Unseparated o.time

instance (o : Observation) : Decidable o.Plain :=
  decidable_of_iff (Entry.isToken o.statistic.toList = true ∧ Entry.isToken o.measure.toList = true ∧
      (∀ d ∈ o.dimensions.entries, PlainPair d) ∧ Unseparated o.region ∧ Unseparated o.time)
    ⟨fun ⟨statistic, measure, dimensions, place⟩ => ⟨statistic, measure, dimensions, place.1, place.2⟩,
      fun plain => ⟨plain.statistic, plain.measure, plain.dimensions, plain.region, plain.time⟩⟩

namespace Presentation

/-! Ids. -/

def dimensionId (key : DimensionKey) : String :=
  key.statistic ++ ":" ++ key.measure ++ "(" ++ key.dimension ++ ")"

/-- What a header shows as the id of its column. -/
def columnId (p : Presentation) : ColumnKey → String
  | .field name => name
  | .dimension key => dimensionId key
  | .pivot key => p.pivotId key

def pairChars (d : String × String) : List Char := d.1.toList ++ ':' :: d.2.toList

theorem toList_dimensionsText_cons (d : String × String) (l : List (String × String)) :
    (dimensionsText (d :: l)).toList = '(' :: ([','].intercalate ((d :: l).map pairChars) ++ [')']) := by
  have pairs : String.toList ∘ (fun d : String × String => d.1 ++ ":" ++ d.2) = pairChars := by
    funext d
    simp [pairChars]
  have some : (d :: l).isEmpty = false := rfl
  simp only [dimensionsText, some, Bool.false_eq_true, if_false, String.toList_append,
    String.toList_intercalate, List.map_map]
  exact congrArg (fun f => '(' :: ([','].intercalate ((d :: l).map f) ++ [')'])) pairs

theorem toList_dimensionId (key : DimensionKey) : (dimensionId key).toList =
    key.statistic.toList ++ ':' :: (key.measure.toList ++ '(' :: (key.dimension.toList ++ [')'])) := by
  simp [dimensionId]

theorem toList_pivotId (p : Presentation) (key : PivotKey) : (p.pivotId key).toList =
    key.statistic.toList ++ ':' :: ((key.measure.toList ++ (dimensionsText key.dimensions).toList ++
      '-' :: p.suffixField.toList) ++ ':' :: key.suffix.toList) := by
  simp [pivotId]

theorem not_mem_pairChars {d : String × String} (plain : PlainPair d) :
    ' ' ∉ pairChars d ∧ ',' ∉ pairChars d := by
  have dimension := unseparated_of_isToken plain.1
  simp [pairChars, dimension.space, dimension.comma, plain.2.space, plain.2.comma]

/-- Dimensions are read back from their text. -/
theorem pairs_inj {l l' : List (String × String)} (plain : ∀ d ∈ l, PlainPair d)
    (plain' : ∀ d ∈ l', PlainPair d) (same : l.map pairChars = l'.map pairChars) : l = l' := by
  have read : ∀ l : List (String × String), (∀ d ∈ l, PlainPair d) →
      (l.map pairChars).map (Text.cut? ':') = l.map fun d => some (d.1.toList, d.2.toList) := by
    intro l plain
    rw [List.map_map]
    refine List.map_congr_left fun d own => ?_
    exact Text.cut?_append (unseparated_of_isToken (plain d own).1).colon _
  have cut := congrArg (List.map (Text.cut? ':')) same
  rw [read l plain, read l' plain'] at cut
  refine List.map_injective_iff.2 ?_ cut
  intro d d' chars
  obtain ⟨name, value⟩ := Prod.mk.inj (Option.some.inj chars)
  exact Prod.ext (String.toList_inj.1 name) (String.toList_inj.1 value)

theorem split_pairs {l : List (String × String)} (plain : ∀ d ∈ l, PlainPair d) (some : l ≠ []) :
    Text.split ',' ([','].intercalate (l.map pairChars)) = l.map pairChars := by
  refine Text.split_intercalate_of_not_mem (by simpa using some) ?_
  intro _ own
  obtain ⟨d, member, rfl⟩ := List.mem_map.1 own
  exact (not_mem_pairChars (plain d member)).2

/-- A token ends at the first character that no token has. -/
theorem token_append_inj {s s' : String} {c : Char} {rest rest' : List Char}
    (token : Entry.isToken s.toList = true) (token' : Entry.isToken s'.toList = true)
    (other : Entry.isTokenChar c = false) :
    s.toList ++ c :: rest = s'.toList ++ c :: rest' ↔ s = s' ∧ rest = rest' := by
  rw [Text.append_cons_inj (Entry.not_mem_of_isToken token other)
    (Entry.not_mem_of_isToken token' other), String.toList_inj]

theorem measure_dimensions_inj {m m' : String} {l l' : List (String × String)}
    (token : Entry.isToken m.toList = true) (token' : Entry.isToken m'.toList = true)
    (plain : ∀ d ∈ l, PlainPair d) (plain' : ∀ d ∈ l', PlainPair d)
    (same : m.toList ++ (dimensionsText l).toList = m'.toList ++ (dimensionsText l').toList) :
    m = m' ∧ l = l' := by
  have none : (dimensionsText []).toList = [] := rfl
  cases l with
  | nil =>
    cases l' with
    | nil =>
      rw [none, List.append_nil, List.append_nil] at same
      exact ⟨String.toList_inj.1 same, rfl⟩
    | cons d' l' =>
      have noOpening := (unseparated_of_isToken token).opening
      rw [none, List.append_nil, toList_dimensionsText_cons] at same
      simp [same] at noOpening
  | cons d l =>
    cases l' with
    | nil =>
      have noOpening := (unseparated_of_isToken token').opening
      rw [none, List.append_nil, toList_dimensionsText_cons] at same
      simp [← same] at noOpening
    | cons d' l' =>
      rw [toList_dimensionsText_cons, toList_dimensionsText_cons,
        token_append_inj token token' rfl, List.append_cancel_right_eq] at same
      obtain ⟨measure, body⟩ := same
      have pairs := congrArg (Text.split ',') body
      rw [split_pairs plain (by simp), split_pairs plain' (by simp)] at pairs
      exact ⟨measure, pairs_inj plain plain' pairs⟩

theorem dimensionId_inj {a b : DimensionKey} (plain : a.Plain) (plain' : b.Plain)
    (same : dimensionId a = dimensionId b) : a = b := by
  have chars := congrArg String.toList same
  rw [toList_dimensionId, toList_dimensionId, token_append_inj plain.statistic plain'.statistic rfl,
    token_append_inj plain.measure plain'.measure rfl, List.append_cancel_right_eq] at chars
  obtain ⟨statistic, measure, dimension⟩ := chars
  cases a
  cases b
  rw [DimensionKey.mk.injEq]
  exact ⟨statistic, measure, String.toList_inj.1 dimension⟩

/-- The first colon ends the statistic and the last one leads the suffix, whatever dashes there are. -/
theorem pivotId_inj {p : Presentation} {a b : PivotKey} (plain : a.Plain) (plain' : b.Plain)
    (same : p.pivotId a = p.pivotId b) : a = b := by
  have chars := congrArg String.toList same
  rw [toList_pivotId, toList_pivotId, token_append_inj plain.statistic plain'.statistic rfl] at chars
  obtain ⟨statistic, rest⟩ := chars
  have suffix := Text.append_cons_right_cancel plain.suffix.colon plain'.suffix.colon rest
  rw [suffix, List.append_cancel_right_eq, List.append_cancel_right_eq] at rest
  obtain ⟨measure, dimensions⟩ := measure_dimensions_inj plain.measure plain'.measure
    plain.dimensions plain'.dimensions rest
  cases a
  cases b
  rw [PivotKey.mk.injEq]
  exact ⟨statistic, measure, dimensions, String.toList_inj.1 suffix⟩

/-- One has a single colon, the other has another one before the suffix. -/
theorem dimensionId_ne_pivotId (p : Presentation) {a : DimensionKey} {b : PivotKey} (plain : a.Plain)
    (plain' : b.Plain) : dimensionId a ≠ p.pivotId b := by
  intro same
  have chars := congrArg String.toList same
  rw [toList_dimensionId, toList_pivotId, token_append_inj plain.statistic plain'.statistic rfl] at chars
  have noColon : ':' ∉ a.measure.toList ++ '(' :: (a.dimension.toList ++ [')']) := by
    have measure := (unseparated_of_isToken plain.measure).colon
    have dimension := (unseparated_of_isToken plain.dimension).colon
    simp [measure, dimension]
  simp [chars.2] at noColon

theorem not_mem_dimensionsText {l : List (String × String)} (plain : ∀ d ∈ l, PlainPair d) :
    ' ' ∉ (dimensionsText l).toList := by
  cases l with
  | nil => simp [dimensionsText]
  | cons d l =>
    rw [toList_dimensionsText_cons]
    intro space
    have body : ' ' ∈ [','].intercalate ((d :: l).map pairChars) := by simpa using space
    obtain comma | ⟨_, own, inside⟩ := Text.mem_intercalate body
    · cases comma
    · obtain ⟨d, member, rfl⟩ := List.mem_map.1 own
      exact (not_mem_pairChars (plain d member)).1 inside

/-- The id of a column is a single word. -/
theorem columnId_word (p : Presentation) {a : ColumnKey} (plain : a.Plain) :
    ' ' ∉ (p.columnId a).toList := by
  cases a with
  | field name => exact (Field.word name plain).1
  | dimension key =>
    have statistic := (unseparated_of_isToken plain.statistic).space
    have measure := (unseparated_of_isToken plain.measure).space
    have dimension := (unseparated_of_isToken plain.dimension).space
    rw [columnId, toList_dimensionId]
    simp [statistic, measure, dimension]
  | pivot key =>
    have statistic := (unseparated_of_isToken plain.statistic).space
    have measure := (unseparated_of_isToken plain.measure).space
    have dimensions := not_mem_dimensionsText plain.dimensions
    have suffix := plain.suffix.space
    have field : ' ' ∉ p.suffixField.toList := by
      rw [suffixField, timeField]
      cases p.timeRows <;> cases p.query.timeField <;> decide
    rw [columnId, toList_pivotId]
    simp [statistic, measure, dimensions, suffix, field]

theorem colon_mem_columnId (p : Presentation) {a : ColumnKey} (isData : a.statistic?.isSome = true) :
    ':' ∈ (p.columnId a).toList := by
  cases a with
  | field name => contradiction
  | dimension key => simp [columnId, toList_dimensionId]
  | pivot key => simp [columnId, toList_pivotId]

/-- The id of a column of data tells what it is of. -/
theorem columnId_inj (p : Presentation) {a b : ColumnKey} (isData : a.statistic?.isSome = true)
    (isData' : b.statistic?.isSome = true) (plain : a.Plain) (plain' : b.Plain)
    (same : p.columnId a = p.columnId b) : a = b := by
  cases a with
  | field name => contradiction
  | dimension key =>
    cases b with
    | field name' => contradiction
    | dimension key' => exact congrArg ColumnKey.dimension (dimensionId_inj plain plain' same)
    | pivot key' => exact absurd same (p.dimensionId_ne_pivotId plain plain')
  | pivot key =>
    cases b with
    | field name' => contradiction
    | dimension key' => exact absurd same.symm (p.dimensionId_ne_pivotId plain' plain)
    | pivot key' => exact congrArg ColumnKey.pivot (pivotId_inj plain plain' same)

/-! Headers. -/

theorem header_of_data (p : Presentation) {a : ColumnKey} (isData : a.statistic?.isSome = true) :
    ∃ name, p.header a = p.query.labels.choose (p.columnId a) name := by
  cases a with
  | field name => contradiction
  | dimension key => exact ⟨_, rfl⟩
  | pivot key => exact ⟨_, rfl⟩

section

variable {p : Presentation} (ids : p.query.labels ≠ .name)

include ids

theorem colon_mem_header {a : ColumnKey} (isData : a.statistic?.isSome = true) :
    ':' ∈ (p.header a).toList := by
  obtain ⟨name, header⟩ := p.header_of_data isData
  have colon := p.colon_mem_columnId isData
  rw [header]
  cases labels : p.query.labels with
  | id => exact colon
  | name => contradiction
  | both => simp [Labels.choose, colon]

/-- The id is all of the header of a column of data, or its last word in parentheses. -/
theorem columnId_eq_of_header {a b : ColumnKey} (isData : a.statistic?.isSome = true)
    (isData' : b.statistic?.isSome = true) (plain : a.Plain) (plain' : b.Plain)
    (same : p.header a = p.header b) : p.columnId a = p.columnId b := by
  obtain ⟨name, header⟩ := p.header_of_data isData
  obtain ⟨name', header'⟩ := p.header_of_data isData'
  rw [header, header'] at same
  cases labels : p.query.labels with
  | id => simpa [labels, Labels.choose] using same
  | name => contradiction
  | both =>
    have word (c : ColumnKey) (plain : c.Plain) : ' ' ∉ '(' :: ((p.columnId c).toList ++ [')']) := by
      simp [p.columnId_word plain]
    have chars (id name : String) : (Labels.both.choose id name).toList =
        name.toList ++ ' ' :: ('(' :: (id.toList ++ [')'])) := by
      simp [Labels.choose]
    have whole := congrArg String.toList same
    rw [labels, chars, chars] at whole
    have last := Text.append_cons_right_cancel (word a plain) (word b plain') whole
    rw [List.cons.injEq, List.append_cancel_right_eq] at last
    exact String.toList_inj.1 last.2

/-- A header tells what its column is of. -/
theorem header_inj {a b : ColumnKey} (plain : a.Plain) (plain' : b.Plain)
    (same : p.header a = p.header b) : a = b := by
  have apart {name : String} {c : ColumnKey} (known : name ∈ Field.names)
      (isData : c.statistic?.isSome = true) (same : p.fieldHeader name = p.header c) : False :=
    (p.fieldHeader_word known).2 (same ▸ colon_mem_header ids isData)
  rcases a.field_or_data with ⟨name, rfl⟩ | isData <;>
    rcases b.field_or_data with ⟨name', rfl⟩ | isData'
  · exact congrArg ColumnKey.field (p.fieldHeader_inj plain plain' same)
  · exact (apart plain isData' same).elim
  · exact (apart plain' isData same.symm).elim
  · have alike := columnId_eq_of_header ids isData isData' plain plain' same
    exact p.columnId_inj isData isData' plain plain' alike

end

/-- Headers that are distinct to begin with are left as they are. -/
theorem labelled_of_nodup {p : Presentation} {f : Frame}
    (distinct : (f.columns.map fun c => p.header c.key).Nodup) : p.labelled f = f.mapColumns p.withHeader := by
  have headers : (f.columns.map p.withHeader).map (·.header) = f.columns.map fun c => p.header c.key := by
    rw [List.map_map]
    rfl
  have kept : ∀ c ∈ f.columns.map p.withHeader,
      tellApart ((f.columns.map p.withHeader).map (·.header)) c = c := by
    intro c own
    have once := List.nodup_iff_count_le_one.1 (headers.symm ▸ distinct) c.header
    rw [tellApart, if_pos (by omega)]
  simp only [labelled, Frame.mapColumns]
  rw [List.map_congr_left kept, List.map_id']

/-- The columns that a table is laid out in, with the index. -/
def columnKeys (p : Presentation) (l : List Observation) : List ColumnKey :=
  p.fields.map .field ++ p.dataKeys l

theorem keys_layOut (p : Presentation) (t : BaseTable) :
    (p.layOut t).all.map (·.key) = p.columnKeys t.observations := by
  rw [layOut, columnKeys, fields, dataKeys]
  cases p.query.layout with
  | long =>
    rw [longFrame_eq, Frame.keys_fill_ofKeys]
    rfl
  | region | time =>
    rw [wideFrame_eq, Frame.keys_fill_ofKeys]
    rfl

theorem nodup_columnKeys (p : Presentation) (l : List Observation) : (p.columnKeys l).Nodup := by
  refine List.nodup_append.2 ⟨p.nodup_fields.map fun _ _ => ColumnKey.field.inj, p.nodup_dataKeys l, ?_⟩
  intro _ field a own same
  obtain ⟨name, _, rfl⟩ := List.mem_map.1 field
  obtain ⟨o, _, statistic⟩ := statistic?_of_mem_dataKeys own
  rw [← same] at statistic
  cases statistic

/-- The table laid out, labelled and coerced, before its rows are sorted and its columns moved. -/
def unsorted (p : Presentation) (t : BaseTable) : Frame := (p.labelled (p.layOut t)).mapCells Cell.coerce

theorem keys_unsorted (p : Presentation) (t : BaseTable) :
    (p.unsorted t).all.map (·.key) = p.columnKeys t.observations := by
  have index : (p.labelled (p.layOut t)).index.toList.map (·.key) =
      (p.layOut t).index.toList.map (·.key) := by
    rw [labelled, Frame.mapColumns]
    cases (p.layOut t).index <;> rfl
  rw [← keys_layOut, unsorted, Frame.mapCells, Frame.all_mapColumns, List.map_map, Frame.all, Frame.all,
    List.map_append, List.map_append, ← index, ← keys_labelled]
  rfl

/-- Sorting takes the columns along as they are, and then they are only moved. -/
theorem all_frame_perm (p : Presentation) (t : BaseTable) :
    (p.frame t).all.Perm ((p.unsorted t).permute (p.rowOrder (p.unsorted t))).all := by
  have distinct := p.nodup_columnKeys t.observations
  rw [← keys_unsorted, Frame.all, List.map_append] at distinct
  refine (p.withArrangedColumns_perm ?_).append_left _
  rw [sorted, Frame.keys_permute]
  exact (List.nodup_append.1 distinct).2.1

/-- Columns are moved with their headers. -/
theorem labels_frame {p : Presentation} {t : BaseTable}
    (kept : p.labelled (p.layOut t) = (p.layOut t).mapColumns p.withHeader) :
    ((p.frame t).all.map fun c => (c.key, c.header)).Perm
      ((p.columnKeys t.observations).map fun a => (a, p.header a)) := by
  refine ((p.all_frame_perm t).map _).trans (.of_eq ?_)
  rw [← keys_layOut]
  simp only [unsorted, kept, Frame.permute, Frame.mapCells, Frame.all_mapColumns, List.map_map]
  rfl

theorem plain_of_mem_columnKeys {p : Presentation} {l : List Observation} (plain : ∀ o ∈ l, o.Plain)
    {a : ColumnKey} (own : a ∈ p.columnKeys l) : a.Plain := by
  obtain field | data := List.mem_append.1 own
  · obtain ⟨name, shown, rfl⟩ := List.mem_map.1 field
    exact p.fields_subset shown
  · obtain ⟨o, member, ⟨d, entry, rfl⟩ | rfl⟩ := exists_of_mem_dataKeys data
    · obtain ⟨statistic, measure, dimensions, _, _⟩ := plain o member
      exact ⟨statistic, measure, (dimensions d entry).1⟩
    · obtain ⟨statistic, measure, dimensions, region, time⟩ := plain o member
      refine ⟨statistic, measure, dimensions, ?_⟩
      rw [pivotKey, suffixOf]
      split
      · exact region
      · exact time

/-- Headers that show ids tell what the columns are of. So those of a frame are distinct, and they are from
the start: none has to name its statistic as well. -/
theorem headers_identify_columns {p : Presentation} (ids : p.query.labels ≠ .name) :
    (∀ a b : ColumnKey, a.Plain → b.Plain → p.header a = p.header b → a = b) ∧
    ∀ t : BaseTable, (∀ o ∈ t.observations, o.Plain) →
      (∀ c ∈ (p.frame t).all, c.key.Plain ∧ c.header = p.header c.key) ∧
      (p.frame t).headers.Nodup ∧ p.labelled (p.layOut t) = (p.layOut t).mapColumns p.withHeader := by
  refine ⟨fun a b => header_inj ids, fun t plain => ?_⟩
  have distinct : ((p.columnKeys t.observations).map p.header).Nodup := by
    refine (List.nodup_map_iff_inj_on (p.nodup_columnKeys _)).2 fun a own b own' => ?_
    exact header_inj ids (plain_of_mem_columnKeys plain own) (plain_of_mem_columnKeys plain own')
  have kept : p.labelled (p.layOut t) = (p.layOut t).mapColumns p.withHeader := by
    refine labelled_of_nodup (distinct.sublist ?_)
    rw [← keys_layOut, List.map_map]
    exact (List.sublist_append_right _ _).map _
  have labels := labels_frame kept
  refine ⟨fun c own => ?_, ?_, kept⟩
  · obtain ⟨a, listed, label⟩ := List.mem_map.1 (labels.mem_iff.1 (List.mem_map_of_mem own))
    obtain ⟨key, header⟩ := Prod.mk.inj label
    rw [← key, ← header]
    exact ⟨plain_of_mem_columnKeys plain listed, rfl⟩
  · have headers := labels.map Prod.snd
    rw [List.map_map, List.map_map] at headers
    exact headers.nodup_iff.2 distinct

open Sample (wide counts)

/-- A measure may end like what follows it. -/
theorem headers_of_counts : (wide .region).query.labels ≠ .name ∧
    (ColumnKey.pivot ⟨"12411", "BEVSTD", [], "2005"⟩).Plain ∧
    (ColumnKey.pivot ⟨"12411", "BEVSTD-year", [], "2005"⟩).Plain ∧
    (wide .region).header (.pivot ⟨"12411", "BEVSTD", [], "2005"⟩) ≠
      (wide .region).header (.pivot ⟨"12411", "BEVSTD-year", [], "2005"⟩) ∧
    (∀ o ∈ counts.observations, o.Plain) ∧ ((wide .region).frame counts).headers.Nodup := by
  have ids : (wide .region).query.labels ≠ .name := by decide
  have short : (ColumnKey.pivot ⟨"12411", "BEVSTD", [], "2005"⟩).Plain :=
    ⟨by decide, by decide, nofun, by decide⟩
  have long : (ColumnKey.pivot ⟨"12411", "BEVSTD-year", [], "2005"⟩).Plain :=
    ⟨by decide, by decide, nofun, by decide⟩
  have plain : ∀ o ∈ counts.observations, o.Plain := by decide +kernel
  obtain ⟨identify, distinct⟩ := headers_identify_columns ids
  refine ⟨ids, short, long, fun same => ?_, plain, (distinct counts plain).2.1⟩
  have alike := identify _ _ short long same
  simp at alike

end Presentation

end RegionalTables
