import RegionalTables.Proofs.Collections
import RegionalTables.Query.Entry

/-! What merged entries ask for. A selection of entries asks for exactly what one of them asks for,
and a selection is determined by what it asks for; so neither the order nor the number of the
entries matters, nor the order in which an entry lists its dimensions and values. -/
namespace RegionalTables

/-- Something to ask for. -/
inductive Demand where
  | measure (statistic measure : String)
  | dimension (statistic measure dimension : String)
  | value (statistic measure dimension value : String)

/-- The entry lists the dimension, or the value in the dimension. -/
def Entry.Asks (e : Entry) : Demand → Prop
  | .measure statistic measure => e.statistic = statistic ∧ e.measure = measure
  | .dimension statistic measure dimension =>
    (e.statistic = statistic ∧ e.measure = measure) ∧ ∃ part ∈ e.parts, part.1 = dimension
  | .value statistic measure dimension value =>
    (e.statistic = statistic ∧ e.measure = measure) ∧
      ∃ part ∈ e.parts, part.1 = dimension ∧ value ∈ part.2

namespace Selection

/-- The values asked for in a dimension, if it is asked for. -/
def values? (s : Selection) (statistic measure dimension : String) : Option (SortedSet String) :=
  (s.measure? statistic measure).bind (·.find? dimension)

def Asks (s : Selection) : Demand → Prop
  | .measure statistic measure => (s.measure? statistic measure).isSome
  | .dimension statistic measure dimension => (s.values? statistic measure dimension).isSome
  | .value statistic measure dimension value =>
    ∃ values, s.values? statistic measure dimension = some values ∧ value ∈ values

/-- Of each statistic some measure is asked for. -/
def Filled (s : Selection) : Prop := ∀ choice ∈ s.statistics.entries, choice.2.entries ≠ []

/-! A selection is determined by what it asks for. -/

theorem ext_measure? {s t : Selection}
    (named : ∀ statistic, (s.statistic? statistic).isSome = (t.statistic? statistic).isSome)
    (same : ∀ statistic measure, s.measure? statistic measure = t.measure? statistic measure) :
    s = t := by
  have statistics : s.statistics = t.statistics := by
    apply SortedMap.ext_find?
    intro statistic
    have there := named statistic
    have measures := same statistic
    simp only [measure?, statistic?] at there measures
    generalize s.statistics.find? statistic = left at *
    generalize t.statistics.find? statistic = right at *
    cases left with
    | none =>
      cases right with
      | none => rfl
      | some _ => simp at there
    | some choice =>
      cases right with
      | none => simp at there
      | some choice' =>
        congr 1
        exact SortedMap.ext_find? measures
  cases s
  cases t
  cases statistics
  rfl

/-- Of each measure the same dimensions and values are asked for. -/
theorem measure?_eq_of_asks {s t : Selection} (same : ∀ d, s.Asks d ↔ t.Asks d)
    (statistic measure : String) : s.measure? statistic measure = t.measure? statistic measure := by
  have measures := same (.measure statistic measure)
  have dimensions dimension := same (.dimension statistic measure dimension)
  have values dimension value := same (.value statistic measure dimension value)
  simp only [Asks, values?] at measures dimensions values
  generalize s.measure? statistic measure = left at *
  generalize t.measure? statistic measure = right at *
  cases left with
  | none =>
    cases right with
    | none => rfl
    | some b => simp at measures
  | some b =>
    cases right with
    | none => simp at measures
    | some c =>
      congr 1
      apply SortedMap.ext_find?
      intro dimension
      have listed := dimensions dimension
      have members := values dimension
      simp only [Option.bind_some] at listed members
      generalize b.find? dimension = left at *
      generalize c.find? dimension = right at *
      cases left with
      | none =>
        cases right with
        | none => rfl
        | some _ => simp at listed
      | some x =>
        cases right with
        | none => simp at listed
        | some y =>
          congr 1
          apply SortedSet.ext_mem
          simpa using members

/-- Where some measure is asked for of each statistic, no statistic is named for nothing. -/
theorem Filled.named_iff {s : Selection} (filled : s.Filled) (statistic : String) :
    (s.statistic? statistic).isSome = true ↔ ∃ measure, s.Asks (.measure statistic measure) := by
  simp only [Asks, measure?, Option.isSome_iff_exists, Option.bind_eq_some_iff]
  constructor
  · rintro ⟨choice, named⟩
    obtain ⟨⟨measure, b⟩, first⟩ :=
      List.exists_mem_of_ne_nil _ (filled _ (SortedMap.find?_eq_some_iff.1 named))
    exact ⟨measure, b, choice, named, SortedMap.find?_eq_some_iff.2 first⟩
  · rintro ⟨_, _, choice, named, _⟩
    exact ⟨choice, named⟩

theorem ext_asks {s t : Selection} (filled : s.Filled) (filled' : t.Filled)
    (same : ∀ d, s.Asks d ↔ t.Asks d) : s = t := by
  refine ext_measure? (fun statistic => ?_) (measure?_eq_of_asks same)
  rw [Bool.eq_iff_iff, filled.named_iff, filled'.named_iff]
  simp only [same]

/-! What an entry adds. -/

theorem isSome_find?_addValues (parts : List (String × List String)) (b : Breakdown)
    (dimension : String) :
    ((parts.foldl addValues b).find? dimension).isSome = true ↔
      (b.find? dimension).isSome = true ∨ ∃ part ∈ parts, part.1 = dimension := by
  induction parts generalizing b with
  | nil => simp
  | cons part parts ih =>
    simp only [List.foldl_cons, ih, addValues, SortedMap.find?_alter, List.mem_cons, exists_eq_or_imp]
    by_cases own : dimension = part.1
    · simp [own]
    · simp [own, Ne.symm own]

theorem mem_find?_addValues (parts : List (String × List String)) (b : Breakdown)
    (dimension value : String) :
    (∃ values, (parts.foldl addValues b).find? dimension = some values ∧ value ∈ values) ↔
      (∃ values, b.find? dimension = some values ∧ value ∈ values) ∨
        ∃ part ∈ parts, part.1 = dimension ∧ value ∈ part.2 := by
  induction parts generalizing b with
  | nil => simp
  | cons part parts ih =>
    simp only [List.foldl_cons, ih, addValues, SortedMap.find?_alter, List.mem_cons, exists_eq_or_imp]
    by_cases own : dimension = part.1
    · subst own
      cases b.find? part.1 <;> simp [or_assoc]
    · simp [own, Ne.symm own]

theorem measure?_addEntry (s : Selection) (e : Entry) (statistic measure : String) :
    (s.addEntry e).measure? statistic measure =
      if e.statistic = statistic ∧ e.measure = measure then
        some (e.parts.foldl addValues ((s.measure? statistic measure).getD .empty))
      else s.measure? statistic measure := by
  simp only [measure?, statistic?, addEntry, insert, SortedMap.find?_alter]
  by_cases statistics : statistic = e.statistic
  · subst statistics
    rw [if_pos rfl, Option.bind_some, SortedMap.find?_alter]
    by_cases measures : measure = e.measure
    · subst measures
      cases s.statistics.find? e.statistic <;> simp
    · cases s.statistics.find? e.statistic <;> simp [measures, Ne.symm measures]
  · simp [statistics, Ne.symm statistics]

theorem asks_addEntry (s : Selection) (e : Entry) (d : Demand) :
    (s.addEntry e).Asks d ↔ s.Asks d ∨ e.Asks d := by
  cases d with
  | measure statistic measure =>
    simp only [Asks, Entry.Asks, measure?_addEntry]
    split <;> simp [*]
  | dimension statistic measure dimension =>
    simp only [Asks, Entry.Asks, values?, measure?_addEntry]
    split
    · next own =>
      rw [Option.bind_some, isSome_find?_addValues]
      cases s.measure? statistic measure <;> simp [own]
    · next other => simp [other]
  | value statistic measure dimension value =>
    simp only [Asks, Entry.Asks, values?, measure?_addEntry]
    split
    · next own =>
      rw [Option.bind_some, mem_find?_addValues]
      cases s.measure? statistic measure <;> simp [own]
    · next other => simp [other]

/-! What entries ask for together. -/

def merge (es : List Entry) : Selection := es.foldl addEntry empty

theorem asks_foldl_addEntry (es : List Entry) (s : Selection) (d : Demand) :
    (es.foldl addEntry s).Asks d ↔ s.Asks d ∨ ∃ e ∈ es, e.Asks d := by
  induction es generalizing s with
  | nil => simp
  | cons e es ih =>
    simp only [List.foldl_cons, ih, asks_addEntry, List.mem_cons, exists_eq_or_imp, or_assoc]

theorem asks_merge {es : List Entry} {d : Demand} : (merge es).Asks d ↔ ∃ e ∈ es, e.Asks d := by
  have nothing : ¬ empty.Asks d := by
    cases d <;> simp [Asks, values?, measure?, statistic?, empty]
  rw [merge, asks_foldl_addEntry, or_iff_right nothing]

theorem named_addEntry (s : Selection) (e : Entry) (statistic : String) :
    ((s.addEntry e).statistic? statistic).isSome = true ↔
      (s.statistic? statistic).isSome = true ∨ e.statistic = statistic := by
  simp only [statistic?, addEntry, insert, SortedMap.find?_alter]
  by_cases own : statistic = e.statistic
  · simp [own]
  · simp [own, Ne.symm own]

theorem named_foldl_addEntry (es : List Entry) (s : Selection) (statistic : String) :
    ((es.foldl addEntry s).statistic? statistic).isSome = true ↔
      (s.statistic? statistic).isSome = true ∨ ∃ e ∈ es, e.statistic = statistic := by
  induction es generalizing s with
  | nil => simp
  | cons e es ih =>
    simp only [List.foldl_cons, ih, named_addEntry, List.mem_cons, exists_eq_or_imp, or_assoc]

/-- Neither the order nor the number of the entries that are added matters. -/
theorem foldl_addEntry_congr {es es' : List Entry} (same : ∀ e, e ∈ es ↔ e ∈ es') (s : Selection) :
    es.foldl addEntry s = es'.foldl addEntry s := by
  refine ext_measure? (fun statistic => ?_) (measure?_eq_of_asks fun d => ?_)
  · rw [Bool.eq_iff_iff, named_foldl_addEntry, named_foldl_addEntry]
    simp only [same]
  · rw [asks_foldl_addEntry, asks_foldl_addEntry]
    simp only [same]

/-! What is found in a merge. -/

theorem isSome_measure?_merge {es : List Entry} {statistic measure : String} :
    ((merge es).measure? statistic measure).isSome = true ↔
      ∃ e ∈ es, e.statistic = statistic ∧ e.measure = measure :=
  asks_merge (d := .measure statistic measure)

section

variable {es : List Entry} {statistic measure : String} {b : Breakdown}
  (found : (merge es).measure? statistic measure = some b)

include found

theorem contains_merge {dimension : String} : b.contains dimension = true ↔
    ∃ e ∈ es, e.Asks (.dimension statistic measure dimension) := by
  rw [← asks_merge, Asks, values?, found]
  rfl

theorem mem_merge {dimension value : String} {values : SortedSet String}
    (listed : b.find? dimension = some values) : value ∈ values ↔
      ∃ e ∈ es, e.Asks (.value statistic measure dimension value) := by
  rw [← asks_merge, Asks, values?, found, Option.bind_some, listed]
  simp

/-- Any value is asked for where no entry lists one. -/
theorem isEmpty_merge {dimension : String} {values : SortedSet String}
    (listed : b.find? dimension = some values) : values.isEmpty = true ↔
      ∀ e ∈ es, ∀ value, ¬ e.Asks (.value statistic measure dimension value) := by
  rw [SortedSet.isEmpty, List.isEmpty_iff, List.eq_nil_iff_forall_not_mem]
  simp only [SortedSet.mem_toList, mem_merge found listed, not_exists, not_and]
  exact ⟨fun none e member value => none value e member, fun none value e member => none e member value⟩

end

theorem filled_addEntry {s : Selection} (filled : s.Filled) (e : Entry) : (s.addEntry e).Filled := by
  rintro ⟨key, choice⟩ member
  rw [← SortedMap.find?_eq_some_iff] at member
  simp only [addEntry, insert, SortedMap.find?_alter] at member
  split at member
  · obtain rfl := Option.some.inj member
    exact SortedMap.entries_alter_ne_nil _ _ _
  · exact filled _ (SortedMap.find?_eq_some_iff.1 member)

theorem filled_foldl_addEntry (es : List Entry) {s : Selection} (filled : s.Filled) :
    (es.foldl addEntry s).Filled := by
  induction es generalizing s with
  | nil => exact filled
  | cons e es ih => exact ih (filled_addEntry filled e)

theorem filled_merge (es : List Entry) : (merge es).Filled := by
  refine filled_foldl_addEntry es ?_
  intro choice member
  simp [empty, SortedMap.empty] at member

theorem ofEntries_eq_ok_iff_mapM {texts : List String} {s : Selection} :
    ofEntries texts = .ok s ↔ ∃ es, texts.mapM Entry.read = .ok es ∧ merge es = s := by
  have step (start : Selection) :
      texts.foldlM (fun s text => do return s.addEntry (← Entry.read text)) start = .ok s ↔
        ∃ es, texts.mapM Entry.read = .ok es ∧ es.foldl addEntry start = s := by
    induction texts generalizing start with
    | nil => simp [pure, Except.pure]
    | cons text texts ih =>
      rw [List.foldlM_cons, List.mapM_cons]
      cases Entry.read text with
      | error r => simp [bind, Except.bind]
      | ok e =>
        change texts.foldlM _ (start.addEntry e) = Except.ok s ↔ _
        rw [ih]
        simp only [bind_eq_ok_iff, pure, Except.pure, Except.ok.injEq, exists_eq_left']
        constructor
        · rintro ⟨es, read, made⟩
          exact ⟨e :: es, ⟨es, read, rfl⟩, made⟩
        · rintro ⟨_, ⟨es, read, rfl⟩, made⟩
          exact ⟨es, read, made⟩
  exact step empty

/-- Texts are merged if all are entries, to the selection that asks for what one of them asks for. -/
theorem ofEntries_eq_ok_iff {texts : List String} {s : Selection} :
    ofEntries texts = .ok s ↔ (∀ text ∈ texts, ∃ e, Entry.read text = .ok e) ∧ s.Filled ∧
      ∀ d, s.Asks d ↔ ∃ text ∈ texts, ∃ e, Entry.read text = .ok e ∧ e.Asks d := by
  have together {es : List Entry} (read : texts.mapM Entry.read = .ok es) (d : Demand) :
      (merge es).Asks d ↔ ∃ text ∈ texts, ∃ e, Entry.read text = .ok e ∧ e.Asks d := by
    simp only [asks_merge, mem_iff_of_mapM_eq_ok read]
    constructor
    · rintro ⟨e, ⟨text, member, own⟩, asks⟩
      exact ⟨text, member, e, own, asks⟩
    · rintro ⟨text, member, e, own, asks⟩
      exact ⟨e, ⟨text, member, own⟩, asks⟩
  rw [ofEntries_eq_ok_iff_mapM]
  constructor
  · rintro ⟨es, read, rfl⟩
    exact ⟨exists_mapM_eq_ok_iff.1 ⟨es, read⟩, filled_merge es, together read⟩
  · rintro ⟨entries, filled, asks⟩
    obtain ⟨es, read⟩ := exists_mapM_eq_ok_iff.2 entries
    refine ⟨es, read, ext_asks (filled_merge es) filled ?_⟩
    intro d
    rw [together read, asks]

end Selection

end RegionalTables
