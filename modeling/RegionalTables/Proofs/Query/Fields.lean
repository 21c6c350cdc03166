import RegionalTables.Proofs.Query.Cleaning

/-! What each field of a query is read from. The steps of reading one after another, with the first
failure as the answer, succeed exactly if each of them does. -/
namespace RegionalTables.Query

/-- The time of a query that may leave it out. -/
def chosenTime : Option String → Except Rejection TimeChoice
  | none => .ok .last
  | some text => readTime text

/-- Every field of the query but the source is what its parameter is read as. -/
structure ReadFrom (given : Arguments) (q : Query) : Prop where
  known : Parameter.checkKnown given = .ok ()
  region : ∃ found, items given "region" = .ok found ∧ readRegion found = q.region
  level : ∃ found, items given "level" = .ok found ∧ readLevel found = .ok q.level
  parent : item given "parent" = .ok q.parent
  time : ∃ text?, item given "time" = .ok text? ∧ chosenTime text? = .ok q.time
  timeField : ∃ text?, item given "dformat" = .ok text? ∧ readTimeField text? = q.timeField
  labels : ∃ text?, item given "labels" = .ok text? ∧ readLabels text? = q.labels
  layout : ∃ text?, item given "layout" = .ok text? ∧ readLayout text? = q.layout
  format : ∃ text?, item given "format" = .ok text? ∧ readFormat text? = q.format
  delimiter : ∃ text?, item given "delimiter" = .ok text? ∧ readDelimiter text? = q.delimiter
  sort : ∃ text?, item given "sort" = .ok text? ∧ readSort text? = q.sort
  data : entryTexts given ≠ [] ∧ Selection.ofEntries (entryTexts given) = .ok q.data

theorem data_eq_ok_iff {given : Arguments} {s : Selection} :
    (items given "data" >>= readData) = .ok s ↔
      entryTexts given ≠ [] ∧ Selection.ofEntries (entryTexts given) = .ok s := by
  rw [items_data]
  by_cases absent : entryTexts given = []
  · simp [absent, bind, Except.bind, readData]
  · simp [absent, bind, Except.bind, readData]

theorem chosenTime_bind (text? : Option String) (next : TimeChoice → Except Rejection Query) :
    (match text? with
      | none => pure .last >>= next
      | some text => readTime text >>= next) = chosenTime text? >>= next := by
  cases text? <;> rfl

theorem ofArguments_eq_ok_iff {source : String} {given : Arguments} {q : Query} :
    ofArguments source given = .ok q ↔ ReadFrom given q ∧ q.source = source := by
  constructor
  · intro read
    obtain ⟨_, known, read⟩ := bind_eq_ok_iff.1 read
    obtain ⟨region, regions, read⟩ := bind_eq_ok_iff.1 read
    obtain ⟨level, levels, read⟩ := bind_eq_ok_iff.1 read
    obtain ⟨_, chosen, read⟩ := bind_eq_ok_iff.1 read
    obtain ⟨_, parent, read⟩ := bind_eq_ok_iff.1 read
    obtain ⟨time?, times, read⟩ := bind_eq_ok_iff.1 read
    obtain ⟨_, timed, read⟩ := bind_eq_ok_iff.1 ((chosenTime_bind time? _).symm.trans read)
    obtain ⟨_, timeField, read⟩ := bind_eq_ok_iff.1 read
    obtain ⟨_, labels, read⟩ := bind_eq_ok_iff.1 read
    obtain ⟨_, layout, read⟩ := bind_eq_ok_iff.1 read
    obtain ⟨_, format, read⟩ := bind_eq_ok_iff.1 read
    obtain ⟨_, delimiter, read⟩ := bind_eq_ok_iff.1 read
    obtain ⟨_, sort, read⟩ := bind_eq_ok_iff.1 read
    obtain ⟨texts?, cleaned, read⟩ := bind_eq_ok_iff.1 read
    obtain ⟨data, entries, done⟩ := bind_eq_ok_iff.1 read
    obtain rfl := Except.ok.inj done
    have data := data_eq_ok_iff.1 (bind_eq_ok_iff.2 ⟨_, cleaned, entries⟩)
    exact ⟨⟨known, ⟨_, regions, rfl⟩, ⟨_, levels, chosen⟩, parent, ⟨_, times, timed⟩,
      ⟨_, timeField, rfl⟩, ⟨_, labels, rfl⟩, ⟨_, layout, rfl⟩, ⟨_, format, rfl⟩,
      ⟨_, delimiter, rfl⟩, ⟨_, sort, rfl⟩, data⟩, rfl⟩
  · rintro ⟨⟨known, ⟨_, regions, region⟩, ⟨_, levels, level⟩, parent, ⟨time?, times, time⟩,
      ⟨_, timeFields, timeField⟩, ⟨_, labelings, labels⟩, ⟨_, layouts, layout⟩, ⟨_, formats, format⟩,
      ⟨_, delimiters, delimiter⟩, ⟨_, sorts, sort⟩, data⟩, source⟩
    obtain rfl := source
    obtain ⟨_, texts, data⟩ := bind_eq_ok_iff.1 (data_eq_ok_iff.2 data)
    refine bind_eq_ok_iff.2 ⟨_, known, bind_eq_ok_iff.2 ⟨_, regions, bind_eq_ok_iff.2 ⟨_, levels,
      bind_eq_ok_iff.2 ⟨_, level, bind_eq_ok_iff.2 ⟨_, parent, bind_eq_ok_iff.2 ⟨_, times, ?_⟩⟩⟩⟩⟩⟩
    refine (chosenTime_bind time? _).trans (bind_eq_ok_iff.2 ⟨_, time, ?_⟩)
    refine bind_eq_ok_iff.2 ⟨_, timeFields, bind_eq_ok_iff.2 ⟨_, labelings, bind_eq_ok_iff.2 ⟨_, layouts,
      bind_eq_ok_iff.2 ⟨_, formats, bind_eq_ok_iff.2 ⟨_, delimiters, bind_eq_ok_iff.2 ⟨_, sorts,
      bind_eq_ok_iff.2 ⟨_, texts, bind_eq_ok_iff.2 ⟨_, data, ?_⟩⟩⟩⟩⟩⟩⟩⟩
    rw [region, timeField, labels, layout, format, delimiter, sort]
    rfl

/-- No argument is the source. -/
theorem ReadFrom.with_source {given : Arguments} {q : Query} (read : ReadFrom given q)
    (source : String) : ReadFrom given { q with source } :=
  ⟨read.known, read.region, read.level, read.parent, read.time, read.timeField, read.labels,
    read.layout, read.format, read.delimiter, read.sort, read.data⟩

/-! Arguments that are read alike. -/

/-- Whatever query is read from the arguments is read from the others as well. Only regions, levels
and data may be written differently; the order of regions and levels does not matter. -/
structure ReadsAlike (given given' : Arguments) : Prop where
  known : Parameter.checkKnown given = .ok () → Parameter.checkKnown given' = .ok ()
  plain : ∀ name, name ≠ "region" → name ≠ "level" → name ≠ "data" →
    items given' name = items given name
  lists : ∀ name, name = "region" ∨ name = "level" → ∀ found, items given name = .ok found →
    ∃ found', items given' name = .ok found' ∧ Option.Rel List.Perm found found'
  data : entryTexts given ≠ [] → ∀ s, Selection.ofEntries (entryTexts given) = .ok s →
    entryTexts given' ≠ [] ∧ Selection.ofEntries (entryTexts given') = .ok s

theorem rel_perm_refl (found : Option (List String)) : Option.Rel List.Perm found found := by
  cases found with
  | none => exact .none
  | some l => exact .some (.refl l)

theorem readRegion_of_perm {found found' : Option (List String)}
    (perm : Option.Rel List.Perm found found') : readRegion found' = readRegion found := by
  cases perm with
  | none => rfl
  | some perm =>
    rw [readRegion, readRegion, SortedSet.ofList_congr fun id => perm.symm.mem_iff]

theorem readLevel_of_perm {found found' : Option (List String)} {level : LevelChoice}
    (perm : Option.Rel List.Perm found found') (read : readLevel found = .ok level) :
    readLevel found' = .ok level := by
  cases perm with
  | none => exact read
  | @some items items' perm =>
    have all : items'.contains "all" = items.contains "all" := by
      rw [Bool.eq_iff_iff, List.contains_iff_mem, List.contains_iff_mem, perm.mem_iff]
    rw [readLevel] at read ⊢
    rw [all, ← perm.length_eq]
    split at read
    · next some => rwa [if_pos some]
    · next none =>
      rw [if_neg none]
      obtain ⟨numbers, computed, same⟩ := bind_eq_ok_iff.1 read
      obtain ⟨numbers', computed'⟩ := exists_mapM_eq_ok_iff.2 fun item member =>
        exists_mapM_eq_ok_iff.1 ⟨numbers, computed⟩ item (perm.mem_iff.2 member)
      have levels : SortedSet.ofList numbers' = SortedSet.ofList numbers := by
        apply SortedSet.ofList_congr
        intro n
        simp only [mem_iff_of_mapM_eq_ok computed, mem_iff_of_mapM_eq_ok computed', perm.mem_iff]
      refine bind_eq_ok_iff.2 ⟨numbers', computed', ?_⟩
      rw [levels]
      exact same

theorem ReadFrom.of_alike {given given' : Arguments} {q : Query} (read : ReadFrom given q)
    (alike : ReadsAlike given given') : ReadFrom given' q := by
  have plain (name : String) (region : name ≠ "region") (level : name ≠ "level")
      (data : name ≠ "data") : item given' name = item given name := by
    rw [item, item, alike.plain name region level data]
  obtain ⟨regions, foundRegions, region⟩ := read.region
  obtain ⟨regions', foundRegions', sameRegions⟩ := alike.lists "region" (.inl rfl) _ foundRegions
  obtain ⟨levels, foundLevels, level⟩ := read.level
  obtain ⟨levels', foundLevels', sameLevels⟩ := alike.lists "level" (.inr rfl) _ foundLevels
  constructor
  case known => exact alike.known read.known
  case region => exact ⟨regions', foundRegions', (readRegion_of_perm sameRegions).trans region⟩
  case level => exact ⟨levels', foundLevels', readLevel_of_perm sameLevels level⟩
  case data => exact alike.data read.data.1 _ read.data.2
  all_goals
    rw [plain _ (by decide) (by decide) (by decide)]
  · exact read.parent
  · exact read.time
  · exact read.timeField
  · exact read.labels
  · exact read.layout
  · exact read.format
  · exact read.delimiter
  · exact read.sort

end RegionalTables.Query
