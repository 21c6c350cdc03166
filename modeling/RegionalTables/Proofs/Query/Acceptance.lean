import RegionalTables.Proofs.Query.Choices
import RegionalTables.Proofs.Query.Time

/-! Which query strings are accepted. The checks of all parameters, one after another, make a query of
exactly the pairs in the grammar, and of other pairs the first fault. -/
namespace RegionalTables.Query

/-! Data. -/

theorem ofEntries_of_malformed {before after : List String} {text : String}
    (good : ∀ earlier ∈ before, ∃ e : Entry, e.Valid ∧ e.text = earlier)
    (bad : ∀ e : Entry, e.Valid → e.text ≠ text) :
    Selection.ofEntries (before ++ text :: after) = .error (.malformedEntry text) := by
  have refused : Entry.read text = .error (.malformedEntry text) := by
    rw [Entry.read]
    split
    · next e found =>
      obtain ⟨valid, written⟩ := Entry.chars_of_ofChars? found
      exact absurd (by rw [Entry.text, written, String.ofList_toList]) (bad e valid)
    · rfl
  have step (start : Selection) : (before ++ text :: after).foldlM
      (fun s text => do return s.addEntry (← Entry.read text)) start =
        .error (.malformedEntry text) := by
    induction before generalizing start with
    | nil =>
      rw [List.nil_append, List.foldlM_cons, refused]
      rfl
    | cons earlier before ih =>
      obtain ⟨⟨e, valid, own⟩, rest⟩ := List.forall_mem_cons.1 good
      rw [List.cons_append, List.foldlM_cons, Entry.read_eq_ok_iff.2 ⟨valid, own⟩]
      exact ih rest _
  exact step .empty

theorem ofEntries_eq_ok_iff_spells {texts : List String} (given : texts ≠ []) (s : Selection) :
    Selection.ofEntries texts = .ok s ↔ SpellsData texts s := by
  have same (d : Demand) : (∃ text ∈ texts, ∃ e : Entry, (e.Valid ∧ e.text = text) ∧ e.Asks d) ↔
      ∃ e : Entry, e.Valid ∧ e.text ∈ texts ∧ e.Asks d := by
    constructor
    · rintro ⟨_, member, e, ⟨valid, rfl⟩, asks⟩
      exact ⟨e, valid, member, asks⟩
    · rintro ⟨e, valid, member, asks⟩
      exact ⟨_, member, e, ⟨valid, rfl⟩, asks⟩
  simp only [Selection.ofEntries_eq_ok_iff, Entry.read_eq_ok_iff, same]
  constructor
  · rintro ⟨entries, filled, asks⟩
    exact ⟨given, entries, filled, asks⟩
  · rintro ⟨_, entries, filled, asks⟩
    exact ⟨entries, filled, asks⟩

/-- Entries can always be merged. -/
theorem exists_spellsData {texts : List String} (given : texts ≠ [])
    (entries : ∀ text ∈ texts, ∃ e : Entry, e.Valid ∧ e.text = text) : ∃ s, SpellsData texts s := by
  have readable : ∀ text ∈ texts, ∃ e, Entry.read text = .ok e := fun text member =>
    (entries text member).imp fun _ => Entry.read_eq_ok_iff.2
  obtain ⟨es, read⟩ := exists_mapM_eq_ok_iff.2 readable
  have merged := Selection.ofEntries_eq_ok_iff_mapM.2 ⟨es, read, rfl⟩
  exact ⟨_, (ofEntries_eq_ok_iff_spells given _).1 merged⟩

theorem data_decides (given : Arguments) : Decides (items given "data" >>= readData)
    (SpellsData (entryTexts given)) (DataFault (entryTexts given)) := by
  apply Decides.of_total
  · intro s spelled
    exact data_eq_ok_iff.2 ⟨spelled.given, (ofEntries_eq_ok_iff_spells spelled.given s).2 spelled⟩
  · intro r fault
    rw [items_data]
    generalize entryTexts given = texts at fault
    cases fault with
    | missing => rfl
    | malformed good bad =>
      rw [if_neg (by simp)]
      exact ofEntries_of_malformed good bad
  · generalize entryTexts given = texts
    rcases forall_or_first (fun text => ∃ e : Entry, e.Valid ∧ e.text = text) texts with
      entries | ⟨before, text, after, rfl, good, bad⟩
    · by_cases absent : texts = []
      · rw [absent]
        exact .inr ⟨_, .missing⟩
      · exact .inl (exists_spellsData absent entries)
    · exact .inr ⟨_, .malformed good fun e valid own => bad ⟨e, valid, own⟩⟩

/-! Names. -/

theorem isSome_named?_iff (name : String) :
    (Parameter.named? name).isSome = true ↔ name ∈ parameterNames := by
  have names : Parameter.all.map (·.name) = parameterNames := rfl
  rw [Parameter.named?, List.find?_isSome, ← names, List.mem_map]
  simp only [beq_iff_eq]

theorem checkKnown_of_undeclared {given : Arguments} {names : List String} (nonempty : names ≠ [])
    (ascending : names.Pairwise fun a b => compare a b = .lt)
    (undeclared : ∀ name, name ∈ names ↔ name ∈ given.keys ∧ name ∉ parameterNames) :
    Parameter.checkKnown given = .error (.unknownParameters names) := by
  have found : (given.keys.filter fun name => (Parameter.named? name).isNone) = names := by
    have order : (given.keys.filter fun name => (Parameter.named? name).isNone).Pairwise
        fun a b => compare a b = .lt := given.ascending_keys.filter _
    have same : (⟨_, order⟩ : SortedSet String) = ⟨names, ascending⟩ := by
      refine SortedSet.ext_mem fun name => ?_
      rw [← SortedSet.mem_toList, ← SortedSet.mem_toList, undeclared, ← isSome_named?_iff]
      simp
    exact congrArg SortedSet.toList same
  rw [Parameter.checkKnown, found]
  cases names with
  | nil => contradiction
  | cons name names => rfl

theorem known_decides (pairs : List (String × String)) :
    Decides (Parameter.checkKnown (.ofPairs pairs))
      (fun _ => ∀ name, Arguments.valuesOf name pairs ≠ [] → name ∈ parameterNames)
      (Undeclared pairs) := by
  apply Decides.of_total
  · intro _ known
    exact Parameter.checkKnown_eq_ok_iff.2 fun name given =>
      (isSome_named?_iff name).2 (known name given)
  · rintro r ⟨nonempty, ascending, undeclared⟩
    refine checkKnown_of_undeclared nonempty ascending fun name => ?_
    rw [undeclared, Arguments.mem_keys_ofPairs]
  · by_cases known : ∀ name, Arguments.valuesOf name pairs ≠ [] → name ∈ parameterNames
    · exact .inl ⟨(), known⟩
    · have undeclared (name : String) :
          name ∈ (Arguments.ofPairs pairs).keys.filter (· ∉ parameterNames) ↔
            Arguments.valuesOf name pairs ≠ [] ∧ name ∉ parameterNames := by
        rw [List.mem_filter, Arguments.mem_keys_ofPairs, decide_eq_true_eq]
      have nonempty : (Arguments.ofPairs pairs).keys.filter (· ∉ parameterNames) ≠ [] := by
        intro none
        refine known fun name given => Classical.byContradiction fun other => ?_
        have member := (undeclared name).2 ⟨given, other⟩
        rw [none] at member
        contradiction
      have ascending := (Arguments.ofPairs pairs).ascending_keys.filter
        fun name => decide (name ∉ parameterNames)
      exact .inr ⟨_, .names nonempty ascending undeclared⟩

/-! All parameters together. -/

/-- The reading of a query with one step for each parameter. -/
theorem ofArguments_eq (source : String) (given : Arguments) :
    ofArguments source given = (do
      Parameter.checkKnown given
      let region ← items given "region" >>= fun found => .ok (readRegion found)
      let level ← items given "level" >>= readLevel
      let parent ← item given "parent" >>= .ok
      let time ← item given "time" >>= chosenTime
      let timeField ← item given "dformat" >>= fun found => .ok (readTimeField found)
      let labels ← item given "labels" >>= fun found => .ok (readLabels found)
      let layout ← item given "layout" >>= fun found => .ok (readLayout found)
      let format ← item given "format" >>= fun found => .ok (readFormat found)
      let delimiter ← item given "delimiter" >>= fun found => .ok (readDelimiter found)
      let sort ← item given "sort" >>= fun found => .ok (readSort found)
      let data ← items given "data" >>= readData
      .ok { data, delimiter, timeField, format, labels, layout, level, parent, region, sort, time,
            source }) := by
  have ok_bind {α β : Type} (a : α) (f : α → Except Rejection β) : (Except.ok a >>= f) = f a := rfl
  simp only [bind_assoc, ok_bind, ofArguments, ← chosenTime_bind]
  rfl

section

variable {pairs : List (String × String)}

/-- A query is made of the pairs that spell it. -/
theorem ofArguments_eq_ok_iff_spelled {source : String} {q : Query} :
    ofArguments source (.ofPairs pairs) = .ok q ↔ Spelled pairs q ∧ q.source = source := by
  simp only [ofArguments_eq, (known_decides pairs).bind_eq_ok_iff, (region_decides _).bind_eq_ok_iff,
    (level_decides _).bind_eq_ok_iff, (parent_decides _).bind_eq_ok_iff,
    (time_decides _).bind_eq_ok_iff, (timeField_decides _).bind_eq_ok_iff,
    (labels_decides _).bind_eq_ok_iff, (layout_decides _).bind_eq_ok_iff,
    (format_decides _).bind_eq_ok_iff, (delimiter_decides _).bind_eq_ok_iff,
    (sort_decides _).bind_eq_ok_iff, (data_decides _).bind_eq_ok_iff, entryTexts,
    Arguments.values_ofPairs]
  constructor
  · rintro ⟨_, known, _, region, _, level, _, parent, _, time, _, timeField, _, labels, _, layout, _,
      format, _, delimiter, _, sort, _, data, made⟩
    obtain rfl := Except.ok.inj made
    exact ⟨⟨known, region, level, parent, time, timeField, labels, layout, format, delimiter, sort,
      data⟩, rfl⟩
  · rintro ⟨⟨known, region, level, parent, time, timeField, labels, layout, format, delimiter, sort,
      data⟩, rfl⟩
    exact ⟨(), known, _, region, _, level, _, parent, _, time, _, timeField, _, labels, _, layout, _,
      format, _, delimiter, _, sort, _, data, rfl⟩

/-- Other pairs are refused for their first fault. -/
theorem ofArguments_eq_error_iff_first {source : String} {r : Rejection} :
    ofArguments source (.ofPairs pairs) = .error r ↔ First (checks pairs) r := by
  rw [ofArguments_eq, checks]
  simp only [← Arguments.values_ofPairs]
  refine bind_eq_error_iff_first (known_decides pairs) (fun _ r => ?_) r
  refine bind_eq_error_iff_first (region_decides _) (fun _ r => ?_) r
  refine bind_eq_error_iff_first (level_decides _) (fun _ r => ?_) r
  refine bind_eq_error_iff_first (parent_decides _) (fun _ r => ?_) r
  refine bind_eq_error_iff_first (time_decides _) (fun _ r => ?_) r
  refine bind_eq_error_iff_first (timeField_decides _) (fun _ r => ?_) r
  refine bind_eq_error_iff_first (labels_decides _) (fun _ r => ?_) r
  refine bind_eq_error_iff_first (layout_decides _) (fun _ r => ?_) r
  refine bind_eq_error_iff_first (format_decides _) (fun _ r => ?_) r
  refine bind_eq_error_iff_first (delimiter_decides _) (fun _ r => ?_) r
  refine bind_eq_error_iff_first (sort_decides _) (fun _ r => ?_) r
  refine bind_eq_error_iff_first (data_decides _) (fun _ r => ?_) r
  exact ⟨fun failed => by contradiction, fun first => by contradiction⟩

end

/-! Pairs that spell some query. -/

theorem exists_given_iff {Spells : String → α → Prop} {Fits : String → Prop}
    (values : List String) (absent : α) (fits : ∀ text, (∃ a, Spells text a) ↔ Fits text) :
    (∃ a, Given Spells absent values a) ↔ values.length ≤ 1 ∧ ∀ text ∈ values, Fits text := by
  constructor
  · rintro ⟨a, _ | spells⟩
    · exact ⟨Nat.zero_le 1, fun _ member => by contradiction⟩
    · exact ⟨Nat.le_refl 1, List.forall_mem_singleton.2 ((fits _).1 ⟨a, spells⟩)⟩
  · rintro ⟨once, spelled⟩
    rcases values with _ | ⟨text, _ | ⟨second, others⟩⟩
    · exact ⟨absent, .absent⟩
    · obtain ⟨a, spells⟩ := (fits text).2 (spelled text List.mem_cons_self)
      exact ⟨a, .once spells⟩
    · simp at once

theorem Given.length_le {Spells : String → α → Prop} {absent a : α} {values : List String}
    (given : Given Spells absent values a) : values.length ≤ 1 :=
  ((exists_given_iff values absent fun _ => Iff.rfl).1 ⟨a, given⟩).1

theorem exists_spellsRegion_iff (text : String) :
    (∃ region, SpellsRegion text region) ↔
      text = "all" ∨ ∀ item ∈ commaItems text, IsRegion item := by
  constructor
  · rintro ⟨_, _ | regions⟩
    · exact .inl rfl
    · exact .inr regions
  · rintro (rfl | regions)
    · exact ⟨_, .all⟩
    · exact ⟨_, .ids regions⟩

theorem exists_spellsLevel_iff (text : String) :
    (∃ level, SpellsLevel text level) ↔
      text = "all" ∨ ∀ item ∈ commaItems text, item ∈ levelNames := by
  constructor
  · rintro ⟨_, _ | ⟨known, _⟩⟩
    · exact .inl rfl
    · exact .inr known
  · rintro (rfl | known)
    · exact ⟨_, .all⟩
    · obtain ⟨levels, _, same⟩ := readLevel_of_known known
      exact ⟨_, .levels known same⟩

section

variable {pairs : List (String × String)}

theorem known_iff : (∀ name, Arguments.valuesOf name pairs ≠ [] → name ∈ parameterNames) ↔
    ∀ pair ∈ pairs, pair.2 ≠ "" → pair.1 ∈ parameterNames := by
  constructor
  · rintro known ⟨name, text⟩ member filled
    exact known name (List.ne_nil_of_mem (Arguments.mem_valuesOf.2 ⟨member, filled⟩))
  · intro known name given
    obtain ⟨text, value⟩ := List.exists_mem_of_ne_nil _ given
    obtain ⟨member, filled⟩ := Arguments.mem_valuesOf.1 value
    exact known _ member filled

theorem exists_spellsData_iff {values : List String} :
    (∃ s, SpellsData (values.flatMap Entry.split) s) ↔ values ≠ [] ∧
      ∀ text ∈ values, ∃ entries : List Entry,
        entries ≠ [] ∧ (∀ e ∈ entries, e.Valid) ∧ ",".intercalate (entries.map Entry.text) = text := by
  simp only [← Entry.forall_split_iff]
  rw [← List.forall_mem_flatMap]
  constructor
  · rintro ⟨s, spells⟩
    refine ⟨?_, spells.entries⟩
    rintro rfl
    exact spells.given rfl
  · rintro ⟨given, entries⟩
    obtain ⟨text, member⟩ := List.exists_mem_of_ne_nil values given
    refine exists_spellsData (fun none => ?_) entries
    have pieces := List.flatMap_eq_nil_iff.1 none text member
    exact Entry.splitFrom_ne_nil 0 text.toList (List.map_eq_nil_iff.1 pieces)

/-- The source is written nowhere in the pairs. -/
theorem Spelled.with_source {q : Query} (spelled : Spelled pairs q) (source : String) :
    Spelled pairs { q with source } :=
  ⟨spelled.known, spelled.region, spelled.level, spelled.parent, spelled.time, spelled.timeField,
    spelled.labels, spelled.layout, spelled.format, spelled.delimiter, spelled.sort, spelled.data⟩

theorem Spelled.once {q : Query} (spelled : Spelled pairs q) (name : String) (other : name ≠ "data") :
    (Arguments.valuesOf name pairs).length ≤ 1 := by
  by_cases known : name ∈ parameterNames
  · simp only [parameterNames, List.mem_cons, List.not_mem_nil, or_false] at known
    rcases known with rfl | rfl | rfl | rfl | rfl | rfl | rfl | rfl | rfl | rfl | rfl
    · exact spelled.region.length_le
    · exact spelled.level.length_le
    · exact spelled.parent.length_le
    · exact spelled.time.length_le
    · exact spelled.timeField.length_le
    · exact spelled.labels.length_le
    · exact spelled.layout.length_le
    · exact spelled.format.length_le
    · exact spelled.delimiter.length_le
    · exact spelled.sort.length_le
    · contradiction
  · have none : Arguments.valuesOf name pairs = [] :=
      Classical.byContradiction fun given => known (spelled.known name given)
    rw [none]
    exact Nat.zero_le 1

open Arguments in
/-- Some query is spelled by exactly the pairs in the grammar. -/
theorem exists_spelled_iff : (∃ q, Spelled pairs q) ↔ Grammatical pairs := by
  have region := exists_given_iff (valuesOf "region" pairs) .all exists_spellsRegion_iff
  have level := exists_given_iff (valuesOf "level" pairs) (.levels (.ofList [1])) exists_spellsLevel_iff
  have parent := exists_given_iff (valuesOf "parent" pairs) none exists_spellsParent_iff
  have time := exists_given_iff (valuesOf "time" pairs) .last fun text =>
    Iff.refl (∃ t, SpellsTime text t)
  have timeField := exists_given_iff (valuesOf "dformat" pairs) .year
    (exists_name_iff TimeField.name readTimeField ["year", "date"] (by rintro (_ | _) <;> decide)
      (by decide))
  have labels := exists_given_iff (valuesOf "labels" pairs) .id
    (exists_name_iff Labels.text readLabels ["id", "name", "both"] (by rintro (_ | _ | _) <;> decide)
      (by decide))
  have layout := exists_given_iff (valuesOf "layout" pairs) .long
    (exists_name_iff Layout.name readLayout ["long", "region", "time"]
      (by rintro (_ | _ | _) <;> decide) (by decide))
  have format := exists_given_iff (valuesOf "format" pairs) .csv
    (exists_name_iff Format.name readFormat ["csv", "tsv", "json"] (by rintro (_ | _ | _) <;> decide)
      (by decide))
  have delimiter := exists_given_iff (valuesOf "delimiter" pairs) .comma
    (exists_name_iff (fun d => String.singleton (Delimiter.char d)) readDelimiter [",", ";"]
      (by rintro (_ | _) <;> decide) (by decide))
  have sort := exists_given_iff (valuesOf "sort" pairs) .time
    (exists_name_iff SortKey.name readSort ["time", "region", "value", "measure"]
      (by rintro (_ | _ | _ | _) <;> decide) (by decide))
  constructor
  · rintro ⟨q, spelled⟩
    obtain ⟨data, entries⟩ := exists_spellsData_iff.1 ⟨_, spelled.data⟩
    constructor
    case known => exact known_iff.1 spelled.known
    case once => exact spelled.once
    case region => exact (region.1 ⟨_, spelled.region⟩).2
    case level => exact (level.1 ⟨_, spelled.level⟩).2
    case parent => exact (parent.1 ⟨_, spelled.parent⟩).2
    case time => exact (time.1 ⟨_, spelled.time⟩).2
    case timeField => exact (timeField.1 ⟨_, spelled.timeField⟩).2
    case labels => exact (labels.1 ⟨_, spelled.labels⟩).2
    case layout => exact (layout.1 ⟨_, spelled.layout⟩).2
    case format => exact (format.1 ⟨_, spelled.format⟩).2
    case delimiter => exact (delimiter.1 ⟨_, spelled.delimiter⟩).2
    case sort => exact (sort.1 ⟨_, spelled.sort⟩).2
    case data => exact data
    case entries => exact entries
  · intro g
    obtain ⟨region, regionGiven⟩ := region.2 ⟨g.once _ (by decide), g.region⟩
    obtain ⟨level, levelGiven⟩ := level.2 ⟨g.once _ (by decide), g.level⟩
    obtain ⟨parent, parentGiven⟩ := parent.2 ⟨g.once _ (by decide), g.parent⟩
    obtain ⟨time, timeGiven⟩ := time.2 ⟨g.once _ (by decide), g.time⟩
    obtain ⟨timeField, timeFieldGiven⟩ := timeField.2 ⟨g.once _ (by decide), g.timeField⟩
    obtain ⟨labels, labelsGiven⟩ := labels.2 ⟨g.once _ (by decide), g.labels⟩
    obtain ⟨layout, layoutGiven⟩ := layout.2 ⟨g.once _ (by decide), g.layout⟩
    obtain ⟨format, formatGiven⟩ := format.2 ⟨g.once _ (by decide), g.format⟩
    obtain ⟨delimiter, delimiterGiven⟩ := delimiter.2 ⟨g.once _ (by decide), g.delimiter⟩
    obtain ⟨sort, sortGiven⟩ := sort.2 ⟨g.once _ (by decide), g.sort⟩
    obtain ⟨data, dataGiven⟩ := exists_spellsData_iff.2 ⟨g.data, g.entries⟩
    let q : Query := {
      source := ""
      data, delimiter, timeField, format, labels, layout, level, parent, region, sort, time }
    exact ⟨q, known_iff.2 g.known, regionGiven, levelGiven, parentGiven, timeGiven, timeFieldGiven,
      labelsGiven, layoutGiven, formatGiven, delimiterGiven, sortGiven, dataGiven⟩

end

/-- The accepted query strings are those in the grammar. The query has what is written in its fields,
and other query strings are refused for the first fault in the order of the checks. -/
theorem accepts_exactly_grammar (raw : String) :
    ((∃ q, read raw = .ok q) ↔ Grammatical (pairsOf raw)) ∧
      (∀ q, read raw = .ok q ↔
        Spelled (pairsOf raw) q ∧ q.source = String.ofList (Arguments.trimmed raw)) ∧
      ∀ r, read raw = .error r ↔ First (checks (pairsOf raw)) r := by
  have spelled (q : Query) : read raw = .ok q ↔
      Spelled (pairsOf raw) q ∧ q.source = String.ofList (Arguments.trimmed raw) :=
    ofArguments_eq_ok_iff_spelled
  refine ⟨?_, spelled, fun r => ofArguments_eq_error_iff_first⟩
  rw [← exists_spelled_iff]
  constructor
  · rintro ⟨q, accepted⟩
    exact ⟨q, ((spelled q).1 accepted).1⟩
  · rintro ⟨q, written⟩
    exact ⟨_, (spelled _).2 ⟨written.with_source _, rfl⟩⟩

end RegionalTables.Query
