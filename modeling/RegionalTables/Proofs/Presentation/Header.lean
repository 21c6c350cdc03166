import Mathlib.Data.List.Nodup
import RegionalTables.Proofs.Presentation.Pivot

/-! Which headers are distinct. A display name can stand for several columns, and then each names its
statistic. That tells columns of different statistics apart, but not two columns of one statistic, and
a name may happen to look like one that was told apart. -/
namespace RegionalTables

/-- The image of a member is counted once, unless another member has the same image. -/
theorem count_map_lt_two_iff [DecidableEq β] {l : List α} (f : α → β) (once : l.Nodup) {a : α}
    (own : a ∈ l) : (l.map f).count (f a) < 2 ↔ ¬ ∃ b ∈ l, b ≠ a ∧ f b = f a := by
  obtain ⟨s, t, rfl⟩ := List.append_of_mem own
  have absent : a ∉ s ++ t := (List.nodup_cons.1 (List.nodup_middle.1 once)).1
  have count : ((s ++ a :: t).map f).count (f a) = ((s ++ t).map f).count (f a) + 1 := by
    simp only [List.map_append, List.map_cons, List.count_append, List.count_cons_self]
    omega
  have few : ((s ++ a :: t).map f).count (f a) < 2 ↔ f a ∉ (s ++ t).map f := by
    rw [count, ← List.count_eq_zero]
    omega
  rw [few, List.mem_map]
  refine not_congr ⟨?_, ?_⟩
  · rintro ⟨b, other, same⟩
    have member : b ∈ s ++ a :: t := by simpa using (List.mem_append.1 other).imp_right .inr
    refine ⟨b, member, ?_, same⟩
    rintro rfl
    exact absent other
  · rintro ⟨b, member, apart, same⟩
    exact ⟨b, by simpa [apart] using member, same⟩

namespace Field

/-- All fields there are. -/
def names : List String := [regionId, regionName, "year", "date", statistic, measure, value]

theorem word : ∀ name ∈ names, ' ' ∉ name.toList ∧ ':' ∉ name.toList := by
  decide

theorem displayName_word : ∀ name ∈ names,
    ' ' ∉ (displayName name).toList ∧ ':' ∉ (displayName name).toList := by
  decide

theorem displayName_inj : ∀ name ∈ names, ∀ name' ∈ names,
    displayName name = displayName name' → name = name' := by
  decide

end Field

namespace Presentation

/-- Another of the columns has the same header to begin with. -/
def Shares (p : Presentation) (keys : List ColumnKey) (a : ColumnKey) : Prop :=
  ∃ b ∈ keys, b ≠ a ∧ p.header b = p.header a

instance (p : Presentation) (keys : List ColumnKey) (a : ColumnKey) : Decidable (p.Shares keys a) :=
  inferInstanceAs (Decidable (∃ b ∈ keys, b ≠ a ∧ p.header b = p.header a))

/-- The header that names the statistic as well. -/
def fullHeader (p : Presentation) (a : ColumnKey) : String :=
  p.header a ++ " [" ++ a.statistic?.getD "" ++ "]"

/-- The header in the finished frame. -/
def shownHeader (p : Presentation) (keys : List ColumnKey) (a : ColumnKey) : String :=
  if p.Shares keys a then p.fullHeader a else p.header a

/-- The columns made for what the observations are of, after those of the fields. -/
def dataKeys (p : Presentation) (l : List Observation) : List ColumnKey :=
  match p.query.layout with
  | .long => (dimensionKeys l).map .dimension
  | .region | .time => (p.pivotKeys l).map .pivot

/-- The fields that are shown, with that of the index. -/
def fields (p : Presentation) : List String :=
  match p.query.layout with
  | .long => p.longFields
  | .region | .time => p.indexField :: p.wideFields

theorem fields_of_long {p : Presentation} (long : p.query.layout = .long) : p.fields = p.longFields := by
  rw [fields, long]

theorem fields_of_wide {p : Presentation} (wide : p.query.layout ≠ .long) :
    p.fields = p.indexField :: p.wideFields := by
  rw [fields]
  cases layout : p.query.layout with
  | long => contradiction
  | region | time => rfl

theorem dataKeys_of_wide {p : Presentation} (wide : p.query.layout ≠ .long) (l : List Observation) :
    p.dataKeys l = (p.pivotKeys l).map .pivot := by
  rw [dataKeys]
  cases layout : p.query.layout with
  | long => contradiction
  | region | time => rfl

theorem nodup_fields (p : Presentation) : p.fields.Nodup := by
  by_cases long : p.query.layout = .long
  · rw [fields_of_long long]
    exact p.nodup_longFields
  · rw [fields_of_wide long, indexField, wideFields, timeField]
    cases p.timeRows <;> cases p.query.timeField <;> cases p.showsNames <;> decide

theorem fields_subset (p : Presentation) : p.fields ⊆ Field.names := by
  by_cases long : p.query.layout = .long
  · rw [fields_of_long long, longFields, timeField]
    cases p.query.timeField <;> split <;> split <;> decide
  · rw [fields_of_wide long, indexField, wideFields, timeField]
    cases p.timeRows <;> cases p.query.timeField <;> cases p.showsNames <;> decide

/-- The header of a field is a single word without a colon. -/
theorem fieldHeader_word (p : Presentation) {name : String} (known : name ∈ Field.names) :
    ' ' ∉ (p.fieldHeader name).toList ∧ ':' ∉ (p.fieldHeader name).toList := by
  rw [fieldHeader]
  split
  · exact Field.displayName_word name known
  · exact Field.word name known

/-- Each field has its own header. -/
theorem fieldHeader_inj (p : Presentation) {name name' : String} (known : name ∈ Field.names)
    (known' : name' ∈ Field.names) (same : p.fieldHeader name = p.fieldHeader name') : name = name' := by
  rw [fieldHeader, fieldHeader] at same
  split at same
  · exact Field.displayName_inj name known name' known' same
  · exact same

theorem nodup_fieldHeaders (p : Presentation) : (p.fields.map p.fieldHeader).Nodup :=
  (List.nodup_map_iff_inj_on p.nodup_fields).2 fun _ shown _ shown' =>
    p.fieldHeader_inj (p.fields_subset shown) (p.fields_subset shown')

/-- The header a column is given among columns of these keys. -/
def headerAmong (p : Presentation) (keys : List ColumnKey) (a : ColumnKey) : String :=
  (tellApart (keys.map p.header) ⟨a, p.header a, []⟩).header

/-- Columns are moved, but each has the header it was given. -/
theorem headers_arranged (p : Presentation) (index : Option ColumnKey) {keys : List ColumnKey}
    (distinct : keys.Nodup) : (p.withArrangedColumns (p.labelled (.ofKeys index keys))).headers.Perm
      (index.toList.map p.header ++ keys.map (p.headerAmong keys)) := by
  have keysLabelled := p.keys_labelled_ofKeys index keys
  have arranged := p.withArrangedColumns_perm (f := p.labelled (.ofKeys index keys))
    (keysLabelled.symm ▸ distinct)
  have given : (p.labelled (.ofKeys index keys)).columns.map (·.header) =
      keys.map (p.headerAmong keys) := by
    simp [labelled, Frame.ofKeys, Frame.mapColumns, Function.comp_def, withHeader, headerAmong]
  have front : (p.withArrangedColumns (p.labelled (.ofKeys index keys))).index.toList.map (·.header) =
      index.toList.map p.header := by
    cases index <;> rfl
  rw [Frame.headers, Frame.all, List.map_append, front, ← given]
  exact (arranged.map _).append_left _

theorem headers_fill (cell : ColumnKey → α → Cell) (rows : List α) (f : Frame) :
    (f.fill cell rows).headers = f.headers := by
  cases index : f.index <;>
    simp [Frame.headers, Frame.all, Frame.fill, Frame.mapColumns, Function.comp_def, Column.fill, index]

theorem headerAmong_field (p : Presentation) (keys : List ColumnKey) (name : String) :
    p.headerAmong keys (.field name) = p.fieldHeader name := by
  rw [headerAmong, tellApart]
  split <;> rfl

/-- Columns of data stand beside those of fields, each once and under no header of a field. -/
structure Beside (p : Presentation) (fields : List String) (data : List ColumnKey) : Prop where
  once : data.Nodup
  isData : ∀ a ∈ data, a.statistic?.isSome = true
  apart : ∀ name ∈ fields, ∀ a ∈ data, p.fieldHeader name ≠ p.header a

section

variable {p : Presentation} {fields : List String} {data : List ColumnKey}

theorem Beside.headerAmong (beside : p.Beside fields data) {a : ColumnKey} (own : a ∈ data) :
    p.headerAmong (fields.map .field ++ data) a = p.shownHeader data a := by
  have unlike : p.header a ∉ (fields.map ColumnKey.field).map p.header := by
    intro member
    obtain ⟨_, field, same⟩ := List.mem_map.1 member
    obtain ⟨name, shown, rfl⟩ := List.mem_map.1 field
    exact beside.apart name shown a own same
  have count : ((fields.map ColumnKey.field ++ data).map p.header).count (p.header a) =
      (data.map p.header).count (p.header a) := by
    rw [List.map_append, List.count_append, List.count_eq_zero.2 unlike, Nat.zero_add]
  have alone : (data.map p.header).count (p.header a) < 2 ↔ ¬ p.Shares data a :=
    count_map_lt_two_iff p.header beside.once own
  obtain ⟨statistic, isData⟩ := Option.isSome_iff_exists.1 (beside.isData a own)
  rw [Presentation.headerAmong, tellApart, count, shownHeader]
  by_cases shared : p.Shares data a
  · rw [if_neg fun few => alone.1 few shared, if_pos shared, fullHeader]
    simp [isData]
  · rw [if_pos (alone.2 shared), if_neg shared]

theorem Beside.map_headerAmong (beside : p.Beside fields data) :
    (fields.map ColumnKey.field ++ data).map (p.headerAmong (fields.map .field ++ data)) =
      fields.map p.fieldHeader ++ data.map (p.shownHeader data) := by
  rw [List.map_append, List.map_map]
  congr 1
  · exact List.map_congr_left fun name _ => p.headerAmong_field _ name
  · exact List.map_congr_left fun a own => beside.headerAmong own

end

theorem nodup_dataKeys (p : Presentation) (l : List Observation) : (p.dataKeys l).Nodup := by
  rw [dataKeys]
  cases p.query.layout with
  | long => exact (SortedSet.nodup _).map fun _ _ => ColumnKey.dimension.inj
  | region | time => exact (SortedSet.nodup _).map fun _ _ => ColumnKey.pivot.inj

/-- Each column of data is of an observation. -/
theorem exists_of_mem_dataKeys {p : Presentation} {l : List Observation} {a : ColumnKey}
    (own : a ∈ p.dataKeys l) : ∃ o ∈ l,
      (∃ d ∈ o.dimensions.entries, a = .dimension ⟨o.statistic, o.measure, d.1⟩) ∨
        a = .pivot (p.pivotKey o) := by
  rw [dataKeys] at own
  cases layout : p.query.layout with
  | long =>
    simp only [layout, dimensionKeys, List.mem_map, SortedSet.mem_toList, SortedSet.mem_ofList,
      List.mem_flatMap, Observation.dimensionKeys, SortedMap.keys] at own
    obtain ⟨_, ⟨o, member, _, ⟨d, entry, rfl⟩, rfl⟩, rfl⟩ := own
    exact ⟨o, member, .inl ⟨d, entry, rfl⟩⟩
  | region | time =>
    simp only [layout, pivotKeys, List.mem_map, SortedSet.mem_toList, SortedSet.mem_ofList] at own
    obtain ⟨_, ⟨o, member, rfl⟩, rfl⟩ := own
    exact ⟨o, member, .inr rfl⟩

theorem statistic?_of_mem_dataKeys {p : Presentation} {l : List Observation} {a : ColumnKey}
    (own : a ∈ p.dataKeys l) : ∃ o ∈ l, a.statistic? = some o.statistic := by
  obtain ⟨o, member, ⟨d, _, rfl⟩ | rfl⟩ := exists_of_mem_dataKeys own
  · exact ⟨o, member, rfl⟩
  · exact ⟨o, member, rfl⟩

section

variable {p : Presentation} (names : p.query.labels = .name)

include names

/-- The header of a column of data is made of several words. -/
theorem space_mem_header {a : ColumnKey} (isData : a.statistic?.isSome = true) :
    ' ' ∈ (p.header a).toList := by
  cases a with
  | field name => contradiction
  | dimension key => simp [header, dimensionHeader, label, names, Labels.choose]
  | pivot key =>
    simp only [header, label, names, Labels.choose, pivotName]
    split <;> simp

theorem space_mem_shownHeader (keys : List ColumnKey) {a : ColumnKey}
    (isData : a.statistic?.isSome = true) : ' ' ∈ (p.shownHeader keys a).toList := by
  have space := space_mem_header names isData
  rw [shownHeader]
  split
  · simp [fullHeader, space]
  · exact space

theorem beside_of_names (l : List Observation) {fields : List String}
    (shown : ∀ name ∈ fields, name ∈ p.fields) : p.Beside fields (p.dataKeys l) := by
  have isData : ∀ a ∈ p.dataKeys l, a.statistic?.isSome = true := by
    intro a own
    obtain ⟨o, _, same⟩ := statistic?_of_mem_dataKeys own
    rw [same]
    rfl
  refine ⟨p.nodup_dataKeys l, isData, fun name member a own same => ?_⟩
  have word := (p.fieldHeader_word (p.fields_subset (shown name member))).1
  rw [same] at word
  exact word (space_mem_header names (isData a own))

/-- The headers are those of the fields and, for each column of data, the one it is shown with. -/
theorem headers_frame (t : BaseTable) : (p.frame t).headers.Perm (p.fields.map p.fieldHeader ++
    (p.dataKeys t.observations).map (p.shownHeader (p.dataKeys t.observations))) := by
  by_cases long : p.query.layout = .long
  · have fields := fields_of_long long
    have keys : p.longKeys (dimensionKeys t.observations) =
        p.longFields.map .field ++ p.dataKeys t.observations := by rw [longKeys, dataKeys, long]
    have beside : p.Beside p.longFields (p.dataKeys t.observations) :=
      beside_of_names names _ fun _ => fields ▸ id
    have given := p.headers_arranged none (p.nodup_longKeys t.observations)
    rw [keys, beside.map_headerAmong] at given
    rw [frame_of_long long, headers_fill, longShape, keys, fields]
    exact given
  -- the header of the index is not counted among those of the columns, but no data shares it
  · have fields := fields_of_wide long
    have keys : p.wideKeys (p.pivotKeys t.observations) =
        p.wideFields.map .field ++ p.dataKeys t.observations := by
      rw [wideKeys, dataKeys_of_wide long]
    have beside : p.Beside p.wideFields (p.dataKeys t.observations) :=
      beside_of_names names _ fun _ member => fields ▸ List.mem_cons_of_mem _ member
    have given := p.headers_arranged (some (.field p.indexField)) (p.nodup_wideKeys t.observations)
    rw [keys, beside.map_headerAmong] at given
    rw [frame_of_wide long, headers_fill, wideShape, keys, fields]
    exact given

end

/-- Two columns of one statistic have different headers to begin with. -/
def ToldByHeader (p : Presentation) (data : List ColumnKey) : Prop :=
  ∀ a ∈ data, ∀ b ∈ data, a ≠ b → p.header a = p.header b → a.statistic? ≠ b.statistic?

/-- No header that names its statistic is the same as one that does not. -/
def FullApart (p : Presentation) (data : List ColumnKey) : Prop :=
  ∀ a ∈ data, ∀ b ∈ data, p.Shares data a → ¬ p.Shares data b → p.fullHeader a ≠ p.header b

/-- Headers that name their statistics are the same only if they were so to begin with. -/
def FullTells (p : Presentation) (data : List ColumnKey) : Prop :=
  ∀ a ∈ data, ∀ b ∈ data, p.Shares data a → p.Shares data b → p.fullHeader a = p.fullHeader b →
    p.header a = p.header b

instance (p : Presentation) (data : List ColumnKey) : Decidable (p.ToldByHeader data) :=
  inferInstanceAs (Decidable (∀ a ∈ data, ∀ b ∈ data, a ≠ b → p.header a = p.header b →
    a.statistic? ≠ b.statistic?))

instance (p : Presentation) (data : List ColumnKey) : Decidable (p.FullApart data) :=
  inferInstanceAs (Decidable (∀ a ∈ data, ∀ b ∈ data, p.Shares data a → ¬ p.Shares data b →
    p.fullHeader a ≠ p.header b))

section

variable {p : Presentation} {data : List ColumnKey}

theorem fullHeader_inj {a b : ColumnKey} (isData : a.statistic?.isSome = true)
    (isData' : b.statistic?.isSome = true) (same : p.header a = p.header b) :
    p.fullHeader a = p.fullHeader b ↔ a.statistic? = b.statistic? := by
  obtain ⟨s, own⟩ := Option.isSome_iff_exists.1 isData
  obtain ⟨s', own'⟩ := Option.isSome_iff_exists.1 isData'
  simp [fullHeader, same, own, own', ← String.toList_inj]

/-- If no statistic has an opening bracket in its key, the header is what stands before the last one
and the space that leads it. -/
theorem fullTells_of_plain (plain : ∀ a ∈ data, '[' ∉ (a.statistic?.getD "").toList) :
    p.FullTells data := by
  intro a own b own' _ _ same
  have chars (c : ColumnKey) : (p.fullHeader c).toList =
      ((p.header c).toList ++ [' ']) ++ '[' :: ((c.statistic?.getD "").toList ++ [']']) := by
    simp [fullHeader]
  have absent (c : ColumnKey) (member : c ∈ data) : '[' ∉ (c.statistic?.getD "").toList ++ [']'] := by
    simpa using plain c member
  have whole := congrArg String.toList same
  rw [chars, chars] at whole
  have back := Text.append_cons_right_cancel (absent a own) (absent b own') whole
  rw [back, List.append_cancel_right_eq, List.append_cancel_right_eq] at whole
  exact String.toList_inj.1 whole

theorem nodup_shownHeader_iff (once : data.Nodup)
    (isData : ∀ a ∈ data, a.statistic?.isSome = true) : (data.map (p.shownHeader data)).Nodup ↔
      p.ToldByHeader data ∧ p.FullApart data ∧ p.FullTells data := by
  have shares {a b : ColumnKey} (own : a ∈ data) (apart : a ≠ b) (same : p.header a = p.header b) :
      p.Shares data b := ⟨a, own, apart, same⟩
  have shared {a : ColumnKey} (h : p.Shares data a) : p.shownHeader data a = p.fullHeader a := if_pos h
  have single {a : ColumnKey} (h : ¬ p.Shares data a) : p.shownHeader data a = p.header a := if_neg h
  rw [List.nodup_map_iff_inj_on once]
  constructor
  · intro tell
    refine ⟨fun a own b own' apart same alike => ?_, fun a own b own' many one same => ?_,
      fun a own b own' many many' same => ?_⟩
    · have full := (fullHeader_inj (isData a own) (isData b own') same).2 alike
      rw [← shared (shares own' apart.symm same.symm), ← shared (shares own apart same)] at full
      exact apart (tell a own b own' full)
    · rw [← shared many, ← single one] at same
      obtain rfl := tell a own b own' same
      exact one many
    · rw [← shared many, ← shared many'] at same
      rw [tell a own b own' same]
  · rintro ⟨told, fullApart, fullTells⟩ a own b own' same
    by_contra apart
    -- columns that share a header all name their statistics
    have unlike : p.header a ≠ p.header b := by
      intro alike
      rw [shared (shares own' (Ne.symm apart) alike.symm), shared (shares own apart alike)] at same
      exact told a own b own' apart alike ((fullHeader_inj (isData a own) (isData b own') alike).1 same)
    by_cases many : p.Shares data a <;> by_cases many' : p.Shares data b
    · rw [shared many, shared many'] at same
      exact unlike (fullTells a own b own' many many' same)
    · rw [shared many, single many'] at same
      exact fullApart a own b own' many many' same
    · rw [single many, shared many'] at same
      exact fullApart b own' a own many' many same.symm
    · rw [single many, single many'] at same
      exact unlike same

/-- With display names the headers are distinct if and only if no two columns of one statistic share
theirs and no header that names its statistic meets another. The latter can only be a plain header if
no statistic has an opening bracket in its key. The objects of the rows have the headers as keys. -/
theorem nodup_headers_iff (names : p.query.labels = .name) (t : BaseTable) :
    ((p.frame t).headers.Nodup ↔ p.ToldByHeader (p.dataKeys t.observations) ∧
        p.FullApart (p.dataKeys t.observations) ∧ p.FullTells (p.dataKeys t.observations)) ∧
      ((∀ o ∈ t.observations, '[' ∉ o.statistic.toList) →
        p.FullTells (p.dataKeys t.observations)) ∧
      ∀ i, ∃ members, (p.frame t).rowValue i = .object members ∧
        members.map (·.1) = (p.frame t).headers := by
  have beside : p.Beside p.fields (p.dataKeys t.observations) := beside_of_names names _ fun _ => id
  have words : ∀ name ∈ p.fields, ' ' ∉ (p.fieldHeader name).toList := fun name shown =>
    (p.fieldHeader_word (p.fields_subset shown)).1
  refine ⟨?_, fun plain => fullTells_of_plain fun a own => ?_, fun i => ⟨_, rfl, ?_⟩⟩
  · have apart : ∀ h ∈ p.fields.map p.fieldHeader, ∀ h' ∈ (p.dataKeys t.observations).map
        (p.shownHeader (p.dataKeys t.observations)), h ≠ h' := by
      intro h field h' shown same
      obtain ⟨name, own, rfl⟩ := List.mem_map.1 field
      obtain ⟨a, own', rfl⟩ := List.mem_map.1 shown
      exact words name own (same ▸ space_mem_shownHeader names _ (beside.isData a own'))
    rw [(headers_frame names t).nodup_iff, List.nodup_append,
      ← nodup_shownHeader_iff beside.once beside.isData]
    exact ⟨fun once => once.2.1, fun once => ⟨p.nodup_fieldHeaders, once, apart⟩⟩
  · obtain ⟨o, member, same⟩ := statistic?_of_mem_dataKeys own
    rw [same]
    exact plain o member
  · simp [Frame.headers]

end

end Presentation

namespace Sample

/-- Measures with one name in two statistics, and two such in one of them. -/
def namesakes : Catalog := ⟨"Regionalstatistik", .ofList [
  ("12411", {
    key := "12411"
    name := "Bevölkerungsstand"
    description := none
    measures := .ofList [
      ("BEVSTD", ⟨"BEVSTD", "Einwohner", none, .empty⟩),
      ("BEVZAH", ⟨"BEVZAH", "Einwohner", none, .empty⟩)] }),
  ("12111", {
    key := "12111"
    name := "Zensus"
    description := none
    measures := .ofList [("BEVZEN", ⟨"BEVZEN", "Einwohner", none, .empty⟩)] })]⟩

def byName : Presentation := ⟨namesakes, names, { query with layout := .region, labels := .name }⟩

def inhabitants (statistic measure : String) (value : Int64) : Observation :=
  ⟨"11", "2011", statistic, measure, .integer value, .empty⟩

end Sample

namespace Presentation

open Sample (byName inhabitants)

theorem headers_of_two_statistics :
    byName.query.labels = .name ∧ (byName.frame
      ⟨[inhabitants "12411" "BEVSTD" 5, inhabitants "12111" "BEVZEN" 7], []⟩).headers.Nodup := by
  let t : BaseTable := ⟨[inhabitants "12411" "BEVSTD" 5, inhabitants "12111" "BEVZEN" 7], []⟩
  have plain : ∀ o ∈ t.observations, '[' ∉ o.statistic.toList := by decide +kernel
  have told : byName.ToldByHeader (byName.dataKeys t.observations) := by decide +kernel
  have apart : byName.FullApart (byName.dataKeys t.observations) := by decide +kernel
  obtain ⟨distinct, tells, _⟩ := nodup_headers_iff (p := byName) rfl t
  exact ⟨rfl, distinct.2 ⟨told, apart, tells plain⟩⟩

/-- Both columns name their statistic, which is the same. -/
theorem headers_of_one_statistic :
    byName.query.labels = .name ∧ ¬ (byName.frame
      ⟨[inhabitants "12411" "BEVSTD" 5, inhabitants "12411" "BEVZAH" 7], []⟩).headers.Nodup := by
  let t : BaseTable := ⟨[inhabitants "12411" "BEVSTD" 5, inhabitants "12411" "BEVZAH" 7], []⟩
  have shown : byName.fields.map byName.fieldHeader ++ (byName.dataKeys t.observations).map
      (byName.shownHeader (byName.dataKeys t.observations)) =
        ["ID_Region", "Region", "Einwohner 2011 [12411]", "Einwohner 2011 [12411]"] := by
    decide +kernel
  have headers := headers_frame (p := byName) rfl t
  rw [shown] at headers
  refine ⟨rfl, fun once => ?_⟩
  have distinct := headers.nodup_iff.1 once
  revert distinct
  decide

end Presentation

end RegionalTables
