import Mathlib.Data.List.Forall2
import Mathlib.Logic.Relation
import RegionalTables.Proofs.Query.Entry
import RegionalTables.Proofs.Query.Fields
import RegionalTables.Proofs.Query.Identity
import RegionalTables.Proofs.Query.Merge

/-! Different ways to write one query. The order of pairs, items, entries, dimensions and values, the
spread of entries over several data values, the repetition of entries and a standard that is spelled
out leave the query what it is, up to its source. -/
namespace RegionalTables

namespace Entry

/-- The entry lists its dimensions, and the values of each, in another order. -/
structure Reordered (e e' : Entry) : Prop where
  statistic : e.statistic = e'.statistic
  measure : e.measure = e'.measure
  parts : ∃ parts, e.parts.Perm parts ∧
    List.Forall₂ (fun part part' => part.1 = part'.1 ∧ part.2.Perm part'.2) parts e'.parts

theorem Reordered.refl (e : Entry) : e.Reordered e :=
  ⟨rfl, rfl, e.parts, .refl _, List.forall₂_same.2 fun part _ => ⟨rfl, .refl part.2⟩⟩

theorem Reordered.exists_part {e e' : Entry} (reordered : e.Reordered e')
    {p : String × List String → Prop}
    (kept : ∀ part part', part.1 = part'.1 → part.2.Perm part'.2 → (p part ↔ p part')) :
    (∃ part ∈ e.parts, p part) ↔ ∃ part ∈ e'.parts, p part := by
  obtain ⟨parts, perm, each⟩ := reordered.parts
  simp only [perm.mem_iff]
  generalize e'.parts = parts' at each
  clear perm
  induction each with
  | nil => simp
  | cons same _ ih => simp only [List.mem_cons, exists_eq_or_imp, kept _ _ same.1 same.2, ih]

theorem Reordered.asks {e e' : Entry} (reordered : e.Reordered e') (d : Demand) :
    e.Asks d ↔ e'.Asks d := by
  cases d with
  | measure statistic measure => rw [Asks, Asks, reordered.statistic, reordered.measure]
  | dimension statistic measure dimension =>
    have parts := reordered.exists_part (p := fun part => part.1 = dimension)
      fun part part' same _ => by rw [same]
    rw [Asks, Asks, reordered.statistic, reordered.measure, parts]
  | value statistic measure dimension value =>
    have parts := reordered.exists_part (p := fun part => part.1 = dimension ∧ value ∈ part.2)
      fun part part' same perm => by rw [same, perm.mem_iff]
    rw [Asks, Asks, reordered.statistic, reordered.measure, parts]

theorem Reordered.valid {e e' : Entry} (reordered : e.Reordered e') (valid : e.Valid) : e'.Valid := by
  obtain ⟨parts, perm, each⟩ := reordered.parts
  refine ⟨reordered.statistic ▸ valid.statistic, reordered.measure ▸ valid.measure, ?_⟩
  have before : ∀ part ∈ parts, ValidPart part := fun part member =>
    valid.parts part (perm.mem_iff.2 member)
  generalize e'.parts = parts' at each
  clear perm
  induction each with
  | nil => simp
  | cons same _ ih =>
    obtain ⟨first, rest⟩ := List.forall_mem_cons.1 before
    refine List.forall_mem_cons.2 ⟨⟨same.1 ▸ first.dimension, ?_⟩, ih rest⟩
    intro value member
    exact first.values value (same.2.mem_iff.2 member)

end Entry

namespace Query

/-- Data pairs, each with the entries of one value. -/
def dataPairs (groups : List (List Entry)) : List (String × String) :=
  groups.map fun group => ("data", ",".intercalate (group.map Entry.text))

/-- One step to another way of writing the pairs of a query. -/
inductive Respelled : List (String × String) → List (String × String) → Prop
  /-- The pairs stand in another order. -/
  | order {pairs pairs' : List (String × String)} (perm : pairs.Perm pairs') :
      Respelled pairs pairs'
  /-- The items of a list stand in another order. -/
  | items {name : String} {items items' : List String} {others : List (String × String)}
      (list : name = "region" ∨ name = "level") (perm : items.Perm items') :
      Respelled ((name, ",".intercalate items) :: others) ((name, ",".intercalate items') :: others)
  /-- The entries are spread over other values, in any order and number, with their dimensions and
  values in any order. -/
  | data {groups groups' : List (List Entry)} {others : List (String × String)}
      (valid : ∀ e ∈ groups.flatten, e.Valid)
      (kept : ∀ e ∈ groups.flatten, ∃ e' ∈ groups'.flatten, e.Reordered e')
      (added : ∀ e' ∈ groups'.flatten, ∃ e ∈ groups.flatten, e.Reordered e') :
      Respelled (dataPairs groups ++ others) (dataPairs groups' ++ others)
  /-- A parameter that was left out is given its standard. -/
  | standard {p : Parameter} {text : String} {pairs : List (String × String)}
      (declared : p ∈ Parameter.all) (standard : p.standard = some text)
      (absent : ∀ pair ∈ pairs, pair.1 = p.name → pair.2 = "") :
      Respelled pairs ((p.name, text) :: pairs)

/-! Names whose values stay, or stand in another order. -/

theorem items_congr {given given' : Arguments} {name : String}
    (same : given.values name = given'.values name) : items given name = items given' name := by
  rw [items, items]
  split
  · next p declared =>
    obtain ⟨_, rfl⟩ := Parameter.mem_of_named? declared
    exact Parameter.clean_congr same
  · rfl

theorem items_of_perm {given given' : Arguments} {name : String} (other : name ≠ "data")
    (perm : (given.values name).Perm (given'.values name)) :
    items given name = items given' name := by
  rw [items, items]
  split
  · next p declared =>
    obtain ⟨member, rfl⟩ := Parameter.mem_of_named? declared
    refine Parameter.clean_of_perm ?_ perm
    cases repeatable : p.repeatable with
    | false => rfl
    | true => exact absurd (Parameter.name_of_repeatable p member repeatable) other
  · rfl

/-- Arguments are read alike if each name is and the data asks for the same. -/
theorem ReadsAlike.of_items {given given' : Arguments}
    (known : Parameter.checkKnown given = .ok () → Parameter.checkKnown given' = .ok ())
    (same : ∀ name, name ≠ "data" → items given' name = items given name)
    (data : entryTexts given ≠ [] → ∀ s, Selection.ofEntries (entryTexts given) = .ok s →
      entryTexts given' ≠ [] ∧ Selection.ofEntries (entryTexts given') = .ok s) :
    ReadsAlike given given' where
  known := known
  plain name _ _ other := same name other
  lists name list found cleaned := by
    have other : name ≠ "data" := by rcases list with rfl | rfl <;> decide
    exact ⟨found, (same name other).trans cleaned, rel_perm_refl found⟩
  data := data

theorem entryTexts_ofPairs (pairs : List (String × String)) :
    entryTexts (.ofPairs pairs) = (Arguments.valuesOf "data" pairs).flatMap Entry.split := by
  rw [entryTexts, Arguments.values_ofPairs]

theorem readsAlike_of_perm {pairs pairs' : List (String × String)} (perm : pairs.Perm pairs') :
    ReadsAlike (.ofPairs pairs) (.ofPairs pairs') := by
  have values name := Arguments.valuesOf_perm name perm
  have texts : (entryTexts (.ofPairs pairs)).Perm (entryTexts (.ofPairs pairs')) := by
    rw [entryTexts_ofPairs, entryTexts_ofPairs]
    exact (values "data").flatMap_right _
  apply ReadsAlike.of_items
  · simp only [Parameter.checkKnown_eq_ok_iff]
    intro known name given
    exact known name fun absent => given (absent ▸ values name).nil_eq.symm
  · intro name other
    refine (items_of_perm other ?_).symm
    simpa only [Arguments.values_ofPairs] using values name
  · intro some s read
    simp only [Selection.ofEntries_eq_ok_iff, texts.mem_iff] at read ⊢
    exact ⟨fun none => some (none ▸ texts).eq_nil, read⟩

/-! Items. -/

theorem split_items (items : List String) (nonempty : items ≠ []) :
    Text.split ',' (",".intercalate items).toList =
      items.flatMap fun item => Text.split ',' item.toList := by
  rw [String.toList_intercalate]
  change Text.split ',' ([','].intercalate (items.map String.toList)) = _
  rw [Text.split_intercalate (by simpa using nonempty), List.flatMap_map]

theorem split_items_perm {items items' : List String} (perm : items.Perm items') :
    (Text.split ',' (",".intercalate items).toList).Perm
      (Text.split ',' (",".intercalate items').toList) := by
  by_cases empty : items = []
  · subst empty
    rw [perm.nil_eq]
  · have nonempty : items' ≠ [] := fun none => empty (none ▸ perm).eq_nil
    rw [split_items items empty, split_items items' nonempty]
    exact perm.flatMap_right _

theorem readsAlike_of_list {name text text' : String} {others : List (String × String)}
    (list : name = "region" ∨ name = "level")
    (perm : (Text.split ',' text.toList).Perm (Text.split ',' text'.toList)) :
    ReadsAlike (.ofPairs ((name, text) :: others)) (.ofPairs ((name, text') :: others)) := by
  by_cases blank : text = ""
  · have same : text' = text := Parameter.eq_of_items_perm (by simp [blank]) perm
    rw [same]
    exact readsAlike_of_perm (.refl _)
  have filled : text' ≠ "" := by
    intro blank'
    have same : text = text' := Parameter.eq_of_items_perm (by simp [blank']) perm.symm
    exact blank (same.trans blank')
  have own := Arguments.valuesOf_cons_self name blank others
  have own' := Arguments.valuesOf_cons_self name filled others
  have other (k : String) (apart : name ≠ k) : Arguments.valuesOf k ((name, text) :: others) =
      Arguments.valuesOf k ((name, text') :: others) := by
    rw [Arguments.valuesOf_cons_of_ne apart, Arguments.valuesOf_cons_of_ne apart]
  have others' (k : String) (apart : name ≠ k) :
      items (.ofPairs ((name, text') :: others)) k = items (.ofPairs ((name, text) :: others)) k := by
    apply items_congr
    rw [Arguments.values_ofPairs, Arguments.values_ofPairs, other k apart]
  constructor
  case known =>
    simp only [Parameter.checkKnown_eq_ok_iff]
    intro known k given
    by_cases same : name = k
    · subst same
      exact known name (by simp [own])
    · exact known k (by rwa [other k same])
  case plain =>
    intro k region level _
    refine others' k ?_
    rintro rfl
    exact list.elim region level
  case lists =>
    intro k _ found cleaned
    by_cases same : name = k
    · subst same
      obtain ⟨p, declared, style⟩ : ∃ p, Parameter.named? name = some p ∧ p.list = .comma := by
        rcases list with rfl | rfl <;> exact ⟨_, rfl, rfl⟩
      obtain ⟨member, same⟩ := Parameter.mem_of_named? declared
      rw [items, declared] at cleaned ⊢
      exact Parameter.clean_of_items_perm member style perm
        (by rw [same, Arguments.values_ofPairs, own]) (by rw [same, Arguments.values_ofPairs, own'])
        cleaned
    · exact ⟨found, (others' k same).trans cleaned, rel_perm_refl found⟩
  case data =>
    have texts : entryTexts (.ofPairs ((name, text') :: others)) =
        entryTexts (.ofPairs ((name, text) :: others)) := by
      rw [entryTexts_ofPairs, entryTexts_ofPairs, other]
      rcases list with rfl | rfl <;> decide
    intro some s read
    rw [texts]
    exact ⟨some, read⟩

/-! Data. -/

theorem entryTexts_cons_data (text : String) (pairs : List (String × String)) :
    entryTexts (.ofPairs (("data", text) :: pairs)) =
      (if text = "" then [] else Entry.split text) ++ entryTexts (.ofPairs pairs) := by
  rw [entryTexts_ofPairs, entryTexts_ofPairs]
  by_cases blank : text = ""
  · rw [if_pos blank, blank, Arguments.valuesOf_cons_blank, List.nil_append]
  · rw [if_neg blank, Arguments.valuesOf_cons_self _ blank, List.flatMap_cons]

/-- The entries of data pairs are found again. -/
theorem entryTexts_dataPairs {groups : List (List Entry)} (valid : ∀ e ∈ groups.flatten, e.Valid)
    (others : List (String × String)) :
    entryTexts (.ofPairs (dataPairs groups ++ others)) =
      groups.flatten.map Entry.text ++ entryTexts (.ofPairs others) := by
  induction groups with
  | nil => rfl
  | cons group groups ih =>
    rw [List.flatten_cons, List.forall_mem_append] at valid
    rw [List.flatten_cons, List.map_append, List.append_assoc, ← ih valid.2]
    refine (entryTexts_cons_data _ _).trans (congrArg (· ++ _) ?_)
    by_cases empty : group = []
    · subst empty
      rfl
    · have split := Entry.split_texts empty valid.1
      rw [if_neg, split]
      intro blank
      rw [blank] at split
      obtain ⟨e, rfl, same⟩ := List.map_eq_singleton_iff.1 split.symm
      exact e.text_ne_empty same

/-- What written entries ask for. -/
theorem asks_map_text {es : List Entry} (valid : ∀ e ∈ es, e.Valid) (d : Demand) :
    (∃ text ∈ es.map Entry.text, ∃ e, Entry.read text = .ok e ∧ e.Asks d) ↔ ∃ e ∈ es, e.Asks d := by
  have read (e : Entry) (member : e ∈ es) : Entry.read e.text = .ok e :=
    Entry.read_eq_ok_iff.2 ⟨valid e member, rfl⟩
  constructor
  · rintro ⟨_, listed, e, own, asks⟩
    obtain ⟨e', member, rfl⟩ := List.mem_map.1 listed
    obtain rfl := Except.ok.inj ((read e' member).symm.trans own)
    exact ⟨e', member, asks⟩
  · rintro ⟨e, member, asks⟩
    exact ⟨e.text, List.mem_map_of_mem member, e, read e member, asks⟩

theorem readsAlike_of_data {groups groups' : List (List Entry)} {others : List (String × String)}
    (valid : ∀ e ∈ groups.flatten, e.Valid)
    (kept : ∀ e ∈ groups.flatten, ∃ e' ∈ groups'.flatten, e.Reordered e')
    (added : ∀ e' ∈ groups'.flatten, ∃ e ∈ groups.flatten, e.Reordered e') :
    ReadsAlike (.ofPairs (dataPairs groups ++ others)) (.ofPairs (dataPairs groups' ++ others)) := by
  have valid' : ∀ e' ∈ groups'.flatten, e'.Valid := by
    intro e' member
    obtain ⟨e, own, reordered⟩ := added e' member
    exact reordered.valid (valid e own)
  have noData (groups : List (List Entry)) (name : String) (other : name ≠ "data") :
      Arguments.valuesOf name (dataPairs groups) = [] := by
    apply Arguments.valuesOf_eq_nil
    intro pair member own
    obtain ⟨group, _, rfl⟩ := List.mem_map.1 member
    exact absurd own.symm other
  apply ReadsAlike.of_items
  · simp only [Parameter.checkKnown_eq_ok_iff, Arguments.valuesOf_append]
    intro known name given
    by_cases data : name = "data"
    · subst data
      rfl
    · refine known name ?_
      rw [noData _ name data] at given ⊢
      exact given
  · intro name other
    apply items_congr
    simp only [Arguments.values_ofPairs, Arguments.valuesOf_append, noData _ name other]
  · rw [entryTexts_dataPairs valid, entryTexts_dataPairs valid']
    intro some s read
    constructor
    · intro none
      obtain ⟨nothing', rest⟩ := List.append_eq_nil_iff.1 none
      refine some (List.append_eq_nil_iff.2 ⟨?_, rest⟩)
      rw [List.map_eq_nil_iff, List.eq_nil_iff_forall_not_mem] at nothing' ⊢
      intro e member
      obtain ⟨e', own, _⟩ := kept e member
      exact nothing' e' own
    · rw [Selection.ofEntries_eq_ok_iff, List.forall_mem_append] at read ⊢
      obtain ⟨⟨_, rest⟩, filled, asks⟩ := read
      refine ⟨⟨?_, rest⟩, filled, ?_⟩
      · intro text listed
        obtain ⟨e', member, rfl⟩ := List.mem_map.1 listed
        exact ⟨e', Entry.read_eq_ok_iff.2 ⟨valid' e' member, rfl⟩⟩
      · intro d
        simp only [asks, List.mem_append, or_and_right, exists_or, asks_map_text valid,
          asks_map_text valid']
        refine or_congr_left ⟨?_, ?_⟩
        · rintro ⟨e, member, own⟩
          obtain ⟨e', member', reordered⟩ := kept e member
          exact ⟨e', member', (reordered.asks d).1 own⟩
        · rintro ⟨e', member', own⟩
          obtain ⟨e, member, reordered⟩ := added e' member'
          exact ⟨e, member, (reordered.asks d).2 own⟩

/-! Standards. -/

theorem readsAlike_of_standard {p : Parameter} {text : String} {pairs : List (String × String)}
    (declared : p ∈ Parameter.all) (standard : p.standard = some text)
    (absent : ∀ pair ∈ pairs, pair.1 = p.name → pair.2 = "") :
    ReadsAlike (.ofPairs pairs) (.ofPairs ((p.name, text) :: pairs)) := by
  have none := Arguments.valuesOf_eq_nil absent
  have only : Arguments.valuesOf p.name ((p.name, text) :: pairs) = [text] := by
    rw [Arguments.valuesOf_cons_self _ (Parameter.standard_filled p declared text standard), none]
  have other (name : String) (apart : p.name ≠ name) :
      Arguments.valuesOf name ((p.name, text) :: pairs) = Arguments.valuesOf name pairs :=
    Arguments.valuesOf_cons_of_ne apart pairs
  apply ReadsAlike.of_items
  · simp only [Parameter.checkKnown_eq_ok_iff]
    intro known name given
    by_cases own : p.name = name
    · rw [← own, Parameter.named?_of_mem declared]
      rfl
    · exact known name (by rwa [← other name own])
  · intro name _
    by_cases own : p.name = name
    · subst own
      rw [items, items, Parameter.named?_of_mem declared]
      exact (Parameter.clean_of_standard (by rw [Arguments.values_ofPairs, only]) standard).trans
        (Parameter.clean_of_absent (by rw [Arguments.values_ofPairs, none])).symm
    · apply items_congr
      rw [Arguments.values_ofPairs, Arguments.values_ofPairs, other name own]
  · have texts : entryTexts (.ofPairs ((p.name, text) :: pairs)) = entryTexts (.ofPairs pairs) := by
      rw [entryTexts_ofPairs, entryTexts_ofPairs, other]
      intro data
      rw [Parameter.standard_of_data p declared data] at standard
      contradiction
    intro some s read
    rw [texts]
    exact ⟨some, read⟩

/-! Every readable query has its data in written entries, which can be spread anew. -/

theorem exists_dataPairs {pairs : List (String × String)}
    (entries : ∀ t ∈ entryTexts (.ofPairs pairs), ∃ e, Entry.read t = .ok e) :
    ∃ groups others, pairs.Perm (dataPairs groups ++ others) ∧
      (∀ e ∈ groups.flatten, e.Valid) ∧ ∀ pair ∈ others, pair.1 ≠ "data" := by
  induction pairs with
  | nil => exact ⟨[], [], .nil, by simp, by simp⟩
  | cons pair pairs ih =>
    obtain ⟨name, text⟩ := pair
    by_cases data : name = "data"
    · subst data
      rw [entryTexts_cons_data, List.forall_mem_append] at entries
      obtain ⟨groups, others, perm, allValid, plain⟩ := ih entries.2
      obtain ⟨group, valid, written⟩ := Entry.exists_entries entries.1
      have whole : text = ",".intercalate (group.map Entry.text) := by
        rw [written]
        split
        · next blank => exact blank
        · exact (Entry.intercalate_split text).symm
      refine ⟨group :: groups, others, ?_, ?_, plain⟩
      · rw [whole]
        exact perm.cons _
      · rw [List.flatten_cons, List.forall_mem_append]
        exact ⟨valid, allValid⟩
    · rw [entryTexts_ofPairs, Arguments.valuesOf_cons_of_ne data, ← entryTexts_ofPairs] at entries
      obtain ⟨groups, others, perm, allValid, plain⟩ := ih entries
      refine ⟨groups, (name, text) :: others, ?_, allValid, List.forall_mem_cons.2 ⟨data, plain⟩⟩
      exact (perm.cons _).trans List.perm_middle.symm

/-- So the step to other data is open to every query that is read. -/
theorem exists_dataPairs_of_read {raw : String} {q : Query} (read : Query.read raw = .ok q) :
    ∃ groups others, (Text.Form.decode (Arguments.trimmed raw)).Perm (dataPairs groups ++ others) ∧
      (∀ e ∈ groups.flatten, e.Valid) ∧ ∀ pair ∈ others, pair.1 ≠ "data" :=
  exists_dataPairs (Selection.ofEntries_eq_ok_iff.1 (ofArguments_eq_ok_iff.1 read).1.data.2).1

/-! Steps, and any number of them. -/

theorem Respelled.readsAlike {pairs pairs' : List (String × String)}
    (respelled : Respelled pairs pairs') : ReadsAlike (.ofPairs pairs) (.ofPairs pairs') := by
  cases respelled with
  | order perm => exact readsAlike_of_perm perm
  | items list perm => exact readsAlike_of_list list (split_items_perm perm)
  | data valid kept added => exact readsAlike_of_data valid kept added
  | standard declared standard absent => exact readsAlike_of_standard declared standard absent

theorem ReadFrom.of_respelled {pairs pairs' : List (String × String)} {q : Query}
    (read : ReadFrom (.ofPairs pairs) q) (respelled : Relation.ReflTransGen Respelled pairs pairs') :
    ReadFrom (.ofPairs pairs') q := by
  induction respelled with
  | refl => exact read
  | tail _ step ih => exact ih.of_alike step.readsAlike

/-- A text that writes the pairs of a readable query in another way is read as the same query, up to
the source, and found under the same keys. -/
theorem read_of_respelled {raw raw' : String} {q : Query}
    (respelled : Relation.ReflTransGen Respelled (Text.Form.decode (Arguments.trimmed raw))
      (Text.Form.decode (Arguments.trimmed raw')))
    (read : Query.read raw = .ok q) :
    ∃ q', Query.read raw' = .ok q' ∧ q' = { q with source := q'.source } ∧
      q'.renderKey = q.renderKey ∧ q'.dataKey = q.dataKey := by
  have fields := (ofArguments_eq_ok_iff.1 read).1.of_respelled respelled
  refine ⟨{ q with source := String.ofList (Arguments.trimmed raw') }, ?_, rfl, rfl, rfl⟩
  exact ofArguments_eq_ok_iff.2 ⟨fields.with_source _, rfl⟩

end Query

namespace Sample

def people : Entry := ⟨"12411", "BEVSTD", [("GES", ["GESM", "GESW"]), ("NAT", [])]⟩

def reorderedPeople : Entry := ⟨"12411", "BEVSTD", [("NAT", []), ("GES", ["GESW", "GESM"])]⟩

def allBirths : Entry := ⟨"12612", "BEV001", []⟩

def spelling : String := "data=12411:BEVSTD(GES:GESM|GESW,NAT)&region=11,05111&data=12612:BEV001"

/-- The same query with all that may be written differently. -/
def respelling : String :=
  "?sort=time&region=05111,11&data=12612:BEV001,12411:BEVSTD(NAT,GES:GESW|GESM),12612:BEV001"

def pairs : List (String × String) := Text.Form.decode (Arguments.trimmed spelling)

def respelledPairs : List (String × String) := Text.Form.decode (Arguments.trimmed respelling)

theorem people_reordered : people.Reordered reorderedPeople :=
  ⟨rfl, rfl, [("NAT", []), ("GES", ["GESM", "GESW"])], .swap _ _ _,
    .cons ⟨rfl, .refl _⟩ (.cons ⟨rfl, .swap _ _ _⟩ .nil)⟩

open Query in
theorem data_respelled (others : List (String × String)) :
    Respelled (dataPairs [[people], [allBirths]] ++ others)
      (dataPairs [[allBirths, reorderedPeople, allBirths]] ++ others) := by
  have readPeople : Entry.read people.text = .ok people := by decide +kernel
  have readBirths : Entry.read allBirths.text = .ok allBirths := by decide +kernel
  have validPeople := (Entry.read_eq_ok_iff.1 readPeople).1
  have validBirths := (Entry.read_eq_ok_iff.1 readBirths).1
  apply Respelled.data
  · simp [validPeople, validBirths]
  · simp [people_reordered, Entry.Reordered.refl]
  · simp [people_reordered, Entry.Reordered.refl]

def regions : String × String := ("region", ",".intercalate ["11", "05111"])

def turnedRegions : String × String := ("region", ",".intercalate ["05111", "11"])

def together : List (String × String) := Query.dataPairs [[allBirths, reorderedPeople, allBirths]]

open Query in
theorem respelled : Relation.ReflTransGen Respelled pairs respelledPairs := by
  have gathered : Respelled pairs (dataPairs [[people], [allBirths]] ++ [regions]) :=
    .order (by decide +kernel)
  have spread : Respelled (dataPairs [[people], [allBirths]] ++ [regions]) (together ++ [regions]) :=
    data_respelled [regions]
  have moved : Respelled (together ++ [regions]) (regions :: together) := .order (.swap _ _ _)
  have turned : Respelled (regions :: together) (turnedRegions :: together) :=
    .items (.inl rfl) (.swap _ _ _)
  have whole : respelledPairs = ("sort", "time") :: turnedRegions :: together := by decide +kernel
  have sort : Parameter.named? "sort" = some _ := rfl
  have completed : Respelled (turnedRegions :: together) respelledPairs := by
    rw [whole]
    exact .standard (Parameter.mem_of_named? sort).1 rfl (by decide)
  exact .head gathered (.head spread (.head moved (.head turned (.single completed))))

end Sample

theorem Query.read_of_respelled_people :
    Relation.ReflTransGen Respelled (Text.Form.decode (Arguments.trimmed Sample.spelling))
        (Text.Form.decode (Arguments.trimmed Sample.respelling)) ∧
      ∃ q, Query.read Sample.spelling = .ok q ∧ ∃ q', Query.read Sample.respelling = .ok q' ∧
        q' = { q with source := q'.source } ∧ q'.renderKey = q.renderKey ∧ q'.dataKey = q.dataKey := by
  cases read : Query.read Sample.spelling with
  | error r =>
    have readable : (Query.read Sample.spelling).isOk = true := by decide +kernel
    rw [read] at readable
    contradiction
  | ok q => exact ⟨Sample.respelled, q, rfl, read_of_respelled Sample.respelled read⟩

end RegionalTables
