import RegionalTables.Proofs.Query.Acceptance
import RegionalTables.Proofs.Query.Selection

/-! Selections put together and written out. What two lists of entries ask for together is the union
of what each asks for, down to single values. A selection made from entries is written as one entry
for each measure, and is read back from that. -/
namespace RegionalTables

/-- An entry that asks for nothing but what entries of tokens ask for is itself one of tokens. -/
theorem Entry.valid_of_asks {e : Entry}
    (each : ∀ d, e.Asks d → ∃ e' : Entry, e'.Valid ∧ e'.Asks d) : e.Valid := by
  obtain ⟨whole, valid, statistic, measure⟩ := each (.measure e.statistic e.measure) ⟨rfl, rfl⟩
  refine ⟨statistic ▸ valid.statistic, measure ▸ valid.measure, fun part member => ⟨?_, ?_⟩⟩
  · obtain ⟨_, valid, _, part', listed, same⟩ :=
      each (.dimension e.statistic e.measure part.1) ⟨⟨rfl, rfl⟩, part, member, rfl⟩
    exact same ▸ (valid.parts part' listed).dimension
  · intro value own
    obtain ⟨_, valid, _, part', listed, _, among⟩ :=
      each (.value e.statistic e.measure part.1 value) ⟨⟨rfl, rfl⟩, part, member, rfl, own⟩
    exact (valid.parts part' listed).values value among

/-- Texts are read one by one if they are written forms of entries of tokens. -/
theorem Entry.mapM_read_eq_ok_iff {texts : List String} {es : List Entry} :
    texts.mapM read = .ok es ↔ (∀ e ∈ es, e.Valid) ∧ es.map text = texts := by
  induction texts generalizing es with
  | nil =>
    rw [List.mapM_nil, List.map_eq_nil_iff]
    constructor
    · intro none
      obtain rfl := Except.ok.inj none
      simp
    · rintro ⟨_, rfl⟩
      rfl
  | cons first texts ih =>
    simp only [List.mapM_cons, bind_eq_ok_iff, read_eq_ok_iff, ih]
    constructor
    · rintro ⟨e, ⟨valid, rfl⟩, es, ⟨allValid, rfl⟩, same⟩
      obtain rfl := Except.ok.inj same
      exact ⟨List.forall_mem_cons.2 ⟨valid, allValid⟩, rfl⟩
    · rintro ⟨valid, written⟩
      obtain ⟨e, es, rfl, rfl, rfl⟩ := List.map_eq_cons_iff.1 written
      obtain ⟨own, rest⟩ := List.forall_mem_cons.1 valid
      exact ⟨e, ⟨own, rfl⟩, es, ⟨rest, rfl⟩, rfl⟩

namespace Selection

/-! One entry for each measure. -/

/-- The entry of a measure, with dimensions and values in key order. -/
def entryOf (choice : String × String × Breakdown) : Entry :=
  ⟨choice.1, choice.2.1, choice.2.2.entries.map fun part => (part.1, part.2.toList)⟩

def entries (s : Selection) : List Entry := s.measures.map entryOf

/-- The selection in writing. -/
def text (s : Selection) : String := ",".intercalate (s.entries.map Entry.text)

/-- All that one of the selections asks for. -/
def union (s t : Selection) : Selection := t.entries.foldl addEntry s

theorem mem_entries {s : Selection} {e : Entry} : e ∈ s.entries ↔
    ∃ b, s.measure? e.statistic e.measure = some b ∧ entryOf (e.statistic, e.measure, b) = e := by
  simp only [entries, List.mem_map, measures, List.mem_flatMap, measure?_eq_some_iff]
  constructor
  · rintro ⟨_, ⟨choice, outer, inner⟩, rfl⟩
    obtain ⟨part, member, rfl⟩ := inner
    exact ⟨part.2, ⟨choice.2, outer, member⟩, rfl⟩
  · rintro ⟨b, ⟨choice, outer, inner⟩, same⟩
    exact ⟨_, ⟨_, outer, _, inner, rfl⟩, same⟩

theorem exists_part_entryOf (statistic measure dimension : String) (b : Breakdown)
    (p : List String → Prop) :
    (∃ part ∈ (entryOf (statistic, measure, b)).parts, part.1 = dimension ∧ p part.2) ↔
      ∃ values, b.find? dimension = some values ∧ p values.toList := by
  simp only [entryOf, List.mem_map, SortedMap.find?_eq_some_iff]
  constructor
  · rintro ⟨_, ⟨part, member, rfl⟩, rfl, holds⟩
    exact ⟨part.2, member, holds⟩
  · rintro ⟨values, member, holds⟩
    exact ⟨_, ⟨_, member, rfl⟩, rfl, holds⟩

/-- The entries of a selection ask for what it asks for. -/
theorem asks_entries {s : Selection} {d : Demand} : (∃ e ∈ s.entries, e.Asks d) ↔ s.Asks d := by
  have written (statistic measure : String) (p : Entry → Prop) :
      (∃ e ∈ s.entries, (e.statistic = statistic ∧ e.measure = measure) ∧ p e) ↔
        ∃ b, s.measure? statistic measure = some b ∧ p (entryOf (statistic, measure, b)) := by
    simp only [mem_entries]
    constructor
    · rintro ⟨e, ⟨b, chosen, same⟩, ⟨rfl, rfl⟩, holds⟩
      exact ⟨b, chosen, by rwa [same]⟩
    · rintro ⟨b, chosen, holds⟩
      exact ⟨_, ⟨b, chosen, rfl⟩, ⟨rfl, rfl⟩, holds⟩
  cases d with
  | measure statistic measure =>
    have found := written statistic measure fun _ => True
    simpa [Entry.Asks, Asks, Option.isSome_iff_exists] using found
  | dimension statistic measure dimension =>
    have listed (b : Breakdown) := exists_part_entryOf statistic measure dimension b fun _ => True
    simp only [and_true] at listed
    simp only [Entry.Asks, written, listed, Asks, values?, Option.isSome_iff_exists,
      Option.bind_eq_some_iff]
    constructor
    · rintro ⟨b, chosen, values, found⟩
      exact ⟨values, b, chosen, found⟩
    · rintro ⟨values, b, chosen, found⟩
      exact ⟨b, chosen, values, found⟩
  | value statistic measure dimension value =>
    have listed (b : Breakdown) := exists_part_entryOf statistic measure dimension b (value ∈ ·)
    simp only [Entry.Asks, written, listed, SortedSet.mem_toList, Asks, values?,
      Option.bind_eq_some_iff]
    constructor
    · rintro ⟨b, chosen, values, found, member⟩
      exact ⟨values, ⟨b, chosen, found⟩, member⟩
    · rintro ⟨values, ⟨b, chosen, found⟩, member⟩
      exact ⟨b, chosen, values, found, member⟩

/-- A selection is the merge of its entries. -/
theorem merge_entries {s : Selection} (filled : s.Filled) : merge s.entries = s :=
  ext_asks (filled_merge _) filled fun d => by rw [asks_merge, asks_entries]

theorem asks_union {s t : Selection} {d : Demand} : (s.union t).Asks d ↔ s.Asks d ∨ t.Asks d := by
  rw [union, asks_foldl_addEntry, asks_entries]

/-- Entries merged together are the union of those merged apart. -/
theorem merge_append (es es' : List Entry) : merge (es ++ es') = (merge es).union (merge es') := by
  refine ext_asks (filled_merge _) (filled_foldl_addEntry _ (filled_merge es)) fun d => ?_
  rw [asks_union, asks_merge, asks_merge, asks_merge]
  simp only [List.mem_append, or_and_right, exists_or]

/-! Texts. -/

/-- A selection is made from the entries that the texts are written forms of. -/
theorem ofEntries_eq_ok_iff_merge {texts : List String} {s : Selection} : ofEntries texts = .ok s ↔
    ∃ es : List Entry, (∀ e ∈ es, e.Valid) ∧ es.map Entry.text = texts ∧ merge es = s := by
  simp only [ofEntries_eq_ok_iff_mapM, Entry.mapM_read_eq_ok_iff, and_assoc]

/-- The first text that is no entry is reported. -/
theorem ofEntries_eq_error_iff {texts : List String} {r : Rejection} : ofEntries texts = .error r ↔
    ∃ before text after, texts = before ++ text :: after ∧
      (∀ earlier ∈ before, ∃ e : Entry, e.Valid ∧ e.text = earlier) ∧
      (∀ e : Entry, e.Valid → e.text ≠ text) ∧ r = .malformedEntry text := by
  constructor
  · intro failed
    rcases forall_or_first (fun text => ∃ e : Entry, e.Valid ∧ e.text = text) texts with
      entries | ⟨before, text, after, rfl, good, bad⟩
    · have readable : ∀ text ∈ texts, ∃ e, Entry.read text = .ok e := fun text member =>
        (entries text member).imp fun _ => Entry.read_eq_ok_iff.2
      obtain ⟨es, read⟩ := exists_mapM_eq_ok_iff.2 readable
      rw [ofEntries_eq_ok_iff_mapM.2 ⟨es, read, rfl⟩] at failed
      contradiction
    · have unread (e : Entry) (valid : e.Valid) : e.text ≠ text := fun own => bad ⟨e, valid, own⟩
      rw [Query.ofEntries_of_malformed good unread] at failed
      exact ⟨before, text, after, rfl, good, unread, (Except.error.inj failed).symm⟩
  · rintro ⟨before, text, after, rfl, good, bad, rfl⟩
    exact Query.ofEntries_of_malformed good bad

theorem valid_entries {es : List Entry} (valid : ∀ e ∈ es, e.Valid) :
    ∀ e ∈ (merge es).entries, e.Valid := by
  intro e member
  refine Entry.valid_of_asks fun d asks => ?_
  obtain ⟨e', own, same⟩ := asks_merge.1 (asks_entries.1 ⟨e, member, asks⟩)
  exact ⟨e', valid e' own, same⟩

/-- A selection that was read is read back from its written form. -/
theorem ofEntries_split_text {texts : List String} {s : Selection} (read : ofEntries texts = .ok s)
    (some : s ≠ empty) : ofEntries (Entry.split s.text) = .ok s := by
  obtain ⟨es, valid, _, rfl⟩ := ofEntries_eq_ok_iff_merge.1 read
  have whole := merge_entries (filled_merge es)
  have given : (merge es).entries ≠ [] := by
    intro none
    rw [none] at whole
    exact some whole.symm
  rw [text, Entry.split_texts given (valid_entries valid)]
  exact ofEntries_eq_ok_iff_merge.2 ⟨_, valid_entries valid, rfl, whole⟩

/-- Entries are merged point by point. What is added to a selection, in whatever order and number,
is what the entries ask for and nothing else. So texts together give the union of what they give
apart, texts in another order or repeated give the same, and a selection that was read is read back
from its written form. If a text is no entry, the first such text is reported. -/
theorem entries_merge_pointwise :
    (∀ (s : Selection) (es : List Entry) d,
      (es.foldl addEntry s).Asks d ↔ s.Asks d ∨ ∃ e ∈ es, e.Asks d) ∧
    (∀ (s : Selection) (es es' : List Entry), (∀ e, e ∈ es ↔ e ∈ es') →
      es.foldl addEntry s = es'.foldl addEntry s) ∧
    (∀ texts s, ofEntries texts = .ok s ↔ ∃ es : List Entry,
      (∀ e ∈ es, e.Valid) ∧ es.map Entry.text = texts ∧ es.foldl addEntry empty = s) ∧
    (∀ texts s d, ofEntries texts = .ok s →
      (s.Asks d ↔ ∃ text ∈ texts, ∃ e, Entry.read text = .ok e ∧ e.Asks d)) ∧
    (∀ texts texts' s, (∀ text, text ∈ texts ↔ text ∈ texts') → ofEntries texts = .ok s →
      ofEntries texts' = .ok s) ∧
    (∀ texts texts' u, ofEntries (texts ++ texts') = .ok u ↔ ∃ s t,
      ofEntries texts = .ok s ∧ ofEntries texts' = .ok t ∧ s.union t = u) ∧
    (∀ (s t : Selection) d, (s.union t).Asks d ↔ s.Asks d ∨ t.Asks d) ∧
    (∀ texts s, ofEntries texts = .ok s → s ≠ empty → ofEntries (Entry.split s.text) = .ok s) ∧
    ∀ texts r, ofEntries texts = .error r ↔ ∃ before text after, texts = before ++ text :: after ∧
      (∀ earlier ∈ before, ∃ e : Entry, e.Valid ∧ e.text = earlier) ∧
      (∀ e : Entry, e.Valid → e.text ≠ text) ∧ r = .malformedEntry text := by
  refine ⟨fun s es d => asks_foldl_addEntry es s d, fun s es es' same => foldl_addEntry_congr same s,
    fun _ _ => ofEntries_eq_ok_iff_merge, fun texts s d read => ?_, fun texts texts' s same read => ?_,
    fun texts texts' u => ?_, fun _ _ _ => asks_union, fun _ _ => ofEntries_split_text,
    fun _ _ => ofEntries_eq_error_iff⟩
  · exact (ofEntries_eq_ok_iff.1 read).2.2 d
  · rw [ofEntries_eq_ok_iff] at read ⊢
    simpa only [same] using read
  · simp only [ofEntries_eq_ok_iff_merge]
    constructor
    · rintro ⟨es, valid, written, rfl⟩
      obtain ⟨left, right, rfl, rfl, rfl⟩ := List.map_eq_append_iff.1 written
      obtain ⟨validLeft, validRight⟩ := List.forall_mem_append.1 valid
      exact ⟨_, _, ⟨left, validLeft, rfl, rfl⟩, ⟨right, validRight, rfl, rfl⟩,
        (merge_append left right).symm⟩
    · rintro ⟨_, _, ⟨left, validLeft, rfl, rfl⟩, ⟨right, validRight, rfl, rfl⟩, rfl⟩
      exact ⟨left ++ right, List.forall_mem_append.2 ⟨validLeft, validRight⟩, List.map_append,
        merge_append left right⟩

end Selection

namespace Sample

def birthsAndPeople : List String :=
  ["12612:BEV001", "12411:BEVSTD(NAT,GES:GESW)", "12411:BEVSTD(GES:GESM)"]

def peopleAndBirths : List String :=
  ["12411:BEVSTD(GES:GESM)", "12612:BEV001", "12411:BEVSTD(NAT,GES:GESW)", "12612:BEV001"]

def merged : Selection := ⟨.ofList [
  ("12411", .ofList [("BEVSTD", .ofList [("GES", .ofList ["GESM", "GESW"]), ("NAT", .empty)])]),
  ("12612", .ofList [("BEV001", .empty)])]⟩

end Sample

theorem Selection.births_and_people_merged :
    ofEntries Sample.birthsAndPeople = .ok Sample.merged ∧
      (∀ text, text ∈ Sample.birthsAndPeople ↔ text ∈ Sample.peopleAndBirths) ∧
      ofEntries Sample.peopleAndBirths = .ok Sample.merged ∧ Sample.merged ≠ empty ∧
      Sample.merged.text = "12411:BEVSTD(GES:GESM|GESW,NAT),12612:BEV001" ∧
      ofEntries (Entry.split "12411:BEVSTD(GES:GESM|GESW,NAT),12612:BEV001") = .ok Sample.merged := by
  have read : ofEntries Sample.birthsAndPeople = .ok Sample.merged := by decide +kernel
  have same : ∀ text, text ∈ Sample.birthsAndPeople ↔ text ∈ Sample.peopleAndBirths := by
    simp only [Sample.birthsAndPeople, Sample.peopleAndBirths, List.mem_cons]
    grind
  have some : Sample.merged ≠ empty := by decide +kernel
  have written : Sample.merged.text = "12411:BEVSTD(GES:GESM|GESW,NAT),12612:BEV001" := by
    decide +kernel
  obtain ⟨_, _, _, _, reordered, _, _, again, _⟩ := entries_merge_pointwise
  exact ⟨read, same, reordered _ _ _ same read, some, written, written ▸ again _ _ read some⟩

end RegionalTables
