import RegionalTables.Proofs.Decimal
import RegionalTables.Proofs.Query.Checks

/-! Parameters that are read as what they list: words to choose from, the parent, regions and levels.
Each stands for what its values spell, or is refused. -/
namespace RegionalTables

namespace Query

/-! Parameters with a few words to choose from. -/

theorem accepts_choice_iff {p : Parameter} (choices : p.choices ≠ []) (patterns : p.patterns = [])
    (text : String) : p.accepts text = true ↔ text ∈ p.choices := by
  simp [Parameter.accepts, choices, patterns]

theorem exists_name_iff (nameOf : α → String) (read : Option String → α) (names : List String)
    (named : ∀ a, nameOf a ∈ names) (back : ∀ text ∈ names, nameOf (read (some text)) = text)
    (text : String) : (∃ a, nameOf a = text) ↔ text ∈ names := by
  constructor
  · rintro ⟨a, rfl⟩
    exact named a
  · exact fun member => ⟨_, back text member⟩

/-- A parameter whose choices are the names of a type, and whose standard is the name of what no text
is read as, is at fault where its text is none of its choices. -/
theorem choice_decides {p : Parameter} {nameOf : α → String} {read : Option String → α}
    (given : Arguments) (named : Parameter.named? p.name = some p) (once : p.repeatable = false)
    (single : p.list = .single) (choices : p.choices ≠ []) (patterns : p.patterns = [])
    (standard : p.standard = some (nameOf (read none)))
    (back : ∀ a, read (some (nameOf a)) = a ∧ nameOf a ∈ p.choices)
    (spelled : ∀ text ∈ p.choices, nameOf (read (some text)) = text)
    (plain : ∀ text ∈ p.choices, p.standard ≠ some text → ',' ∉ text.toList) :
    Decides (item given p.name >>= fun found => .ok (read found))
      (Given (fun text a => nameOf a = text) (read none) (given.values p.name))
      (Fault p.name p.standard .single (· ∈ p.choices) (given.values p.name)) := by
  have accepts := accepts_choice_iff choices patterns
  have field : SingleField p (fun text a => nameOf a = text) (read none)
      (fun found => .ok (read found)) := by
    constructor
    case once => exact once
    case single => exact single
    case named => exact named
    case nothing => rfl
    case standard =>
      intro text given
      rw [standard] at given
      exact Option.some.inj given
    case plain =>
      rintro text a rfl
      exact plain _ (back a).2
    case reads =>
      rintro text a rfl
      exact ⟨(accepts _).2 (back a).2, congrArg Except.ok (back a).1⟩
    case refuses =>
      intro text accepted other
      exact absurd (spelled text ((accepts text).1 accepted)) (other _)
  have fits := exists_name_iff nameOf read p.choices (fun a => (back a).2) spelled
  simp only [← fits]
  exact field.decides

section

variable (given : Arguments)

theorem timeField_decides : Decides (item given "dformat" >>= fun found => .ok (readTimeField found))
    (Given (fun text x => TimeField.name x = text) .year (given.values "dformat"))
    (Fault "dformat" (some "year") .single (· ∈ ["year", "date"]) (given.values "dformat")) :=
  choice_decides (p := {
    name := "dformat"
    standard := some "year"
    choices := ["year", "date"] }) given rfl rfl rfl (by decide) rfl (by decide)
    (by rintro (_ | _) <;> decide) (by decide) (by decide)

theorem labels_decides : Decides (item given "labels" >>= fun found => .ok (readLabels found))
    (Given (fun text x => Labels.text x = text) .id (given.values "labels"))
    (Fault "labels" (some "id") .single (· ∈ ["id", "name", "both"]) (given.values "labels")) :=
  choice_decides (p := {
    name := "labels"
    standard := some "id"
    choices := ["id", "name", "both"] }) given rfl rfl rfl (by decide) rfl (by decide)
    (by rintro (_ | _ | _) <;> decide) (by decide) (by decide)

theorem layout_decides : Decides (item given "layout" >>= fun found => .ok (readLayout found))
    (Given (fun text x => Layout.name x = text) .long (given.values "layout"))
    (Fault "layout" (some "long") .single (· ∈ ["long", "region", "time"])
      (given.values "layout")) :=
  choice_decides (p := {
    name := "layout"
    standard := some "long"
    choices := ["long", "region", "time"] }) given rfl rfl rfl (by decide) rfl (by decide)
    (by rintro (_ | _ | _) <;> decide) (by decide) (by decide)

theorem format_decides : Decides (item given "format" >>= fun found => .ok (readFormat found))
    (Given (fun text x => Format.name x = text) .csv (given.values "format"))
    (Fault "format" (some "csv") .single (· ∈ ["csv", "tsv", "json"]) (given.values "format")) :=
  choice_decides (p := {
    name := "format"
    standard := some "csv"
    choices := ["csv", "tsv", "json"] }) given rfl rfl rfl (by decide) rfl (by decide)
    (by rintro (_ | _ | _) <;> decide) (by decide) (by decide)

theorem delimiter_decides :
    Decides (item given "delimiter" >>= fun found => .ok (readDelimiter found))
    (Given (fun text x => String.singleton (Delimiter.char x) = text) .comma
      (given.values "delimiter"))
    (Fault "delimiter" (some ",") .single (· ∈ [",", ";"]) (given.values "delimiter")) :=
  choice_decides (p := {
    name := "delimiter"
    standard := some ","
    choices := [",", ";"] }) given rfl rfl rfl (by decide) rfl (by decide)
    (by rintro (_ | _) <;> decide) (by decide) (by decide)

theorem sort_decides : Decides (item given "sort" >>= fun found => .ok (readSort found))
    (Given (fun text x => SortKey.name x = text) .time (given.values "sort"))
    (Fault "sort" (some "time") .single (· ∈ ["time", "region", "value", "measure"])
      (given.values "sort")) :=
  choice_decides (p := {
    name := "sort"
    standard := some "time"
    choices := ["time", "region", "value", "measure"] }) given rfl rfl rfl (by decide) rfl (by decide)
    (by rintro (_ | _ | _ | _) <;> decide) (by decide) (by decide)

/-! The parent. -/

theorem IsNumeral.not_mem {text : String} (numeral : IsNumeral text) {c : Char}
    (other : Text.isDecimalDigit c = false) : c ∉ text.toList := by
  intro member
  rw [numeral.2 c member] at other
  contradiction

theorem accepts_numeral_iff (text : String) :
    Pattern.accepts [.someDigits] text.toList = true ↔ IsNumeral text := by
  rw [Pattern.accepts_someDigits_iff, IsNumeral]

theorem exists_spellsParent_iff (text : String) :
    (∃ parent, SpellsParent text parent) ↔ IsNumeral text :=
  ⟨fun ⟨_, numeral, _⟩ => numeral, fun numeral => ⟨some text, numeral, rfl⟩⟩

def parentParameter : Parameter := {
  name := "parent"
  patterns := [[.someDigits]] }

theorem parent_decides : Decides (item given "parent" >>= .ok)
    (Given SpellsParent none (given.values "parent"))
    (Fault "parent" none .single IsNumeral (given.values "parent")) := by
  have accepts (text : String) : parentParameter.accepts text = true ↔ IsNumeral text := by
    simp [parentParameter, Parameter.accepts, accepts_numeral_iff]
  have field : SingleField parentParameter SpellsParent none .ok := by
    constructor
    case once => rfl
    case single => rfl
    case named => rfl
    case nothing => rfl
    case standard =>
      intro text given
      contradiction
    case plain =>
      rintro text a ⟨numeral, _⟩ _
      exact numeral.not_mem (by decide)
    case reads =>
      rintro text a ⟨numeral, rfl⟩
      exact ⟨(accepts text).2 numeral, rfl⟩
    case refuses =>
      intro text accepted other
      exact absurd ⟨(accepts text).1 accepted, rfl⟩ (other (some text))
  rw [← funext fun text => propext (exists_spellsParent_iff text)]
  exact field.decides

/-! Regions. -/

theorem eq_of_commaItems {text item : String} (alone : commaItems text = [item]) : text = item := by
  have joined := Text.intercalate_split ',' text.toList
  cases pieces : Text.split ',' text.toList with
  | nil => exact absurd pieces (Text.split_ne_nil ',' _)
  | cons piece others =>
    rw [commaItems, pieces] at alone
    obtain ⟨same, nothing⟩ := List.cons.inj alone
    obtain rfl := List.map_eq_nil_iff.1 nothing
    rw [pieces, List.intercalate_singleton] at joined
    rw [← same, joined, String.ofList_toList]

theorem not_isRegion_all : ¬ IsRegion "all" := by
  rintro (same | numeral)
  · contradiction
  · exact numeral.not_mem (c := 'a') (by decide) (by decide)

def regionParameter : Parameter := {
  name := "region"
  standard := some "all"
  choices := ["DG"]
  patterns := [[.someDigits]]
  list := .comma }

theorem region_decides :
    Decides (items given "region" >>= fun found => .ok (readRegion found))
      (Given SpellsRegion .all (given.values "region"))
      (Fault "region" (some "all") .comma IsRegion (given.values "region")) := by
  have accepts (text : String) : regionParameter.accepts text = true ↔ IsRegion text := by
    simp [regionParameter, Parameter.accepts, accepts_numeral_iff, IsRegion]
  have cleaned : Decides (regionParameter.clean given)
      (Parameter.Cleaned (some "all") .comma IsRegion (given.values "region"))
      (Fault "region" (some "all") .comma IsRegion (given.values "region")) :=
    Parameter.clean_decides rfl (by decide) accepts
  refine cleaned.map fun region => ?_
  generalize given.values "region" = values
  constructor
  · rintro (_ | _ | regions)
    · exact ⟨none, .absent, rfl⟩
    · exact ⟨none, .standard rfl, rfl⟩
    · refine ⟨some (commaItems _), .items ?_ (.comma _) regions, rfl⟩
      intro standard
      obtain rfl := Option.some.inj standard
      exact not_isRegion_all (regions "all" (by decide))
  · rintro ⟨found, _ | standard | ⟨other, pieces, regions⟩, rfl⟩
    · exact .absent
    · obtain rfl := Option.some.inj standard
      exact .once .all
    · cases pieces with
      | comma text => exact .once (.ids regions)

/-! Levels. -/

theorem exists_readLevelNumber {name : String} (known : name ∈ levelNames) :
    ∃ n, readLevelNumber name = .ok n ∧ toString n.toNat = name := by
  simp only [levelNames, List.mem_cons, List.not_mem_nil, or_false] at known
  rcases known with rfl | rfl | rfl | rfl | rfl
  · exact ⟨0, rfl, rfl⟩
  · exact ⟨1, rfl, rfl⟩
  · exact ⟨2, rfl, rfl⟩
  · exact ⟨3, rfl, rfl⟩
  · exact ⟨4, rfl, rfl⟩

theorem readLevelNumber_eq_ok_iff {name : String} (known : name ∈ levelNames) (n : UInt8) :
    readLevelNumber name = .ok n ↔ toString n.toNat = name := by
  obtain ⟨m, read, own⟩ := exists_readLevelNumber known
  rw [read, Except.ok.injEq, ← own]
  constructor
  · rintro rfl
    rfl
  · exact fun same => UInt8.toNat_inj.1 (Decimal.toString_injective same.symm)

/-- Known levels are read as the set of those written. -/
theorem readLevel_of_known {names : List String} (known : ∀ name ∈ names, name ∈ levelNames) :
    ∃ levels : SortedSet UInt8, readLevel (some names) = .ok (.levels levels) ∧
      ∀ n : UInt8, n ∈ levels ↔ toString n.toNat ∈ names := by
  have noAll : ¬ names.contains "all" = true := by
    rw [List.contains_iff_mem]
    exact fun all => absurd (known "all" all) (by decide)
  obtain ⟨numbers, read⟩ : ∃ numbers, names.mapM readLevelNumber = .ok numbers := by
    refine exists_mapM_eq_ok_iff.2 fun name member => ?_
    obtain ⟨n, one, _⟩ := exists_readLevelNumber (known name member)
    exact ⟨n, one⟩
  refine ⟨.ofList numbers, ?_, fun n => ?_⟩
  · rw [readLevel, if_neg noAll, read]
    rfl
  · rw [SortedSet.mem_ofList, mem_iff_of_mapM_eq_ok read]
    constructor
    · rintro ⟨name, member, one⟩
      rwa [(readLevelNumber_eq_ok_iff (known name member) n).1 one]
    · intro member
      exact ⟨_, member, (readLevelNumber_eq_ok_iff (known _ member) n).2 rfl⟩

theorem readLevel_all (names : List String) (all : "all" ∈ names) : readLevel (some names) =
    if 1 < names.length then .error (.mixedAll "level") else .ok .all :=
  if_pos (List.contains_iff_mem.2 all)

def levelParameter : Parameter := {
  name := "level"
  standard := some "1"
  choices := ["0", "1", "2", "3", "4", "all"]
  list := .comma }

theorem level_decides :
    Decides (items given "level" >>= readLevel)
      (Given SpellsLevel (.levels (.ofList [1])) (given.values "level"))
      (LevelFault (given.values "level")) := by
  have accepts (text : String) :
      levelParameter.accepts text = true ↔ text ∈ "all" :: levelNames := by
    rw [accepts_choice_iff (by decide) rfl, List.mem_cons, levelNames]
    simp [levelParameter, or_comm, or_left_comm]
  have cleaned : Decides (levelParameter.clean given)
      (Parameter.Cleaned (some "1") .comma (· ∈ "all" :: levelNames) (given.values "level"))
      (Fault "level" (some "1") .comma (· ∈ "all" :: levelNames) (given.values "level")) :=
    Parameter.clean_decides rfl (by decide) accepts
  have spelled {text : String} (known : ∀ item ∈ commaItems text, item ∈ levelNames) :
      ∃ level, Given SpellsLevel (.levels (.ofList [1])) [text] level := by
    obtain ⟨levels, _, same⟩ := readLevel_of_known known
    exact ⟨.levels levels, .once (.levels known same)⟩
  refine cleaned.bind ?_ ?_ (fun r fault => .list fault) ?_
  all_goals generalize given.values "level" = values
  · rintro level (_ | @⟨text, _, _ | @⟨_, levels, known, same⟩⟩)
    · exact ⟨none, .absent, rfl⟩
    · exact ⟨some (commaItems "all"), .items (by decide) (.comma "all") (by decide), rfl⟩
    · obtain ⟨levels', read, same'⟩ := readLevel_of_known known
      obtain rfl : levels' = levels := SortedSet.ext_mem fun n => (same' n).trans (same n).symm
      by_cases standard : text = "1"
      · subst standard
        have one : readLevel none = readLevel (some (commaItems "1")) := by decide
        exact ⟨none, .standard rfl, one.trans read⟩
      · refine ⟨some (commaItems text), .items ?_ (.comma text) ?_, read⟩
        · exact fun other => standard (Option.some.inj other).symm
        · exact fun item member => List.mem_cons_of_mem "all" (known item member)
  · rintro r (fault | ⟨known, all, several⟩)
    · exact .inl fault
    · refine .inr ⟨some (commaItems _), .items ?_ (.comma _) known, ?_⟩
      · intro standard
        obtain rfl := Option.some.inj standard
        exact absurd several (by decide)
      · rw [readLevel_all _ all, if_pos several]
  · rintro found (_ | standard | @⟨text, _, _, pieces, known⟩)
    · exact .inl ⟨_, .absent⟩
    · obtain rfl := Option.some.inj standard
      exact .inl (spelled (by decide))
    · cases pieces with
      | comma =>
        by_cases all : "all" ∈ commaItems text
        · by_cases several : 1 < (commaItems text).length
          · exact .inr ⟨_, .mixed known all several⟩
          · have alone : commaItems text = ["all"] := by
              obtain ⟨item, one⟩ := List.length_eq_one_iff.1
                (Nat.le_antisymm (Nat.le_of_not_lt several) (List.length_pos_of_mem all))
              rw [one] at all ⊢
              rw [List.mem_singleton.1 all]
            rw [eq_of_commaItems alone]
            exact .inl ⟨_, .once .all⟩
        · refine .inl (spelled fun item member => ?_)
          rcases List.mem_cons.1 (known item member) with rfl | level
          · exact absurd member all
          · exact level

end

end Query

end RegionalTables
