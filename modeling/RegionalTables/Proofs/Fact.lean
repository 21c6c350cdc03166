import RegionalTables.BaseTable.Basic
import RegionalTables.Filter.OfQuery
import RegionalTables.Proofs.Collections
import RegionalTables.Proofs.Text.Split

/-! Where a fact's fields are found. A name without a dot is found under itself alone; the path of a
dimension is found under its own name or by following the measure and the dimension. -/
namespace RegionalTables

/-- No dot stands in the text, so that it is a single step of a path. -/
def Dotless (s : String) : Prop := '.' ∉ s.toList

instance (s : String) : Decidable (Dotless s) := inferInstanceAs (Decidable ('.' ∉ s.toList))

namespace Catalog

/-- No measure and no dimension of the catalog has a dot in its key. -/
def DotlessKeys (c : Catalog) : Prop :=
  ∀ s ∈ c.statistics.entries, ∀ m ∈ s.2.measures.entries,
    Dotless m.1 ∧ ∀ d ∈ m.2.dimensions.keys, Dotless d

instance (c : Catalog) : Decidable c.DotlessKeys :=
  inferInstanceAs (Decidable (∀ s ∈ c.statistics.entries, ∀ m ∈ s.2.measures.entries,
    Dotless m.1 ∧ ∀ d ∈ m.2.dimensions.keys, Dotless d))

theorem measure?_eq_some_iff {c : Catalog} {statistic measure : String} {m : Measure} :
    c.measure? statistic measure = some m ↔
      ∃ s, (statistic, s) ∈ c.statistics.entries ∧ (measure, m) ∈ s.measures.entries := by
  simp only [measure?, statistic?, Statistic.measure?, Option.bind_eq_some_iff,
    SortedMap.find?_eq_some_iff]

theorem mem_of_measure? {c : Catalog} {statistic measure : String} {m : Measure}
    (known : c.measure? statistic measure = some m) :
    ∃ s, (statistic, s) ∈ c.statistics.entries ∧ (measure, m) ∈ s.measures.entries :=
  measure?_eq_some_iff.1 known

theorem DotlessKeys.measure {c : Catalog} (dotless : c.DotlessKeys) {statistic measure : String}
    {m : Measure} (known : c.measure? statistic measure = some m) : Dotless measure := by
  obtain ⟨s, outer, inner⟩ := mem_of_measure? known
  exact (dotless _ outer _ inner).1

theorem DotlessKeys.dimension {c : Catalog} (dotless : c.DotlessKeys)
    {statistic measure d : String} {m : Measure} (known : c.measure? statistic measure = some m)
    (member : m.dimensions.contains d = true) : Dotless d := by
  obtain ⟨s, outer, inner⟩ := mem_of_measure? known
  exact (dotless _ outer _ inner).2 d (SortedMap.mem_keys_iff.2 member)

end Catalog

namespace Fact

open Json RegionalTables.Filter

theorem plainName_of_dotless {name : String} (dotless : Dotless name) : plainName name = name := by
  have noSuffix : ¬ keywordSuffix <:+ name.toList := by
    intro suffix
    exact dotless (suffix.subset (by decide))
  simp [plainName, noSuffix]

theorem field?_of_dotless (f : Fact) {name : String} (dotless : Dotless name) :
    f.field? name = f.get? name := by
  have path : pathOf name = [name] := by
    simp [pathOf, Text.split_of_not_mem dotless]
  rw [field?, plainName_of_dotless dotless, path]
  cases found : f.get? name with
  | none => simp [found]
  | some v => rfl

theorem fieldText?_of_dotless (f : Fact) {name : String} (dotless : Dotless name) :
    f.fieldText? name = f.text? name := by
  rw [fieldText?, field?_of_dotless f dotless, text?]

/-- What the fact holds of a dimension under its path, which is led by the measure. -/
def stored? (f : Fact) (measure dimension : String) : Option Value :=
  (f.get? "path").bind fun paths => (paths.get? measure).bind fun path => path.get? dimension

/-- The text stored of a dimension; `null` and compound values are none. -/
def storedText? (f : Fact) (measure dimension : String) : Option String :=
  (f.stored? measure dimension).bind (·.scalarText?)

/-- The fact keeps the catalog's dimensions on the paths of their measures alone, and as texts. -/
def Nested (f : Fact) (c : Catalog) : Prop :=
  ∀ s ∈ c.statistics.entries, ∀ m ∈ s.2.measures.entries, ∀ d ∈ m.2.dimensions.keys,
    f.get? d = none ∧ f.get? (dimensionPath m.1 d) = none ∧
      ∀ v ∈ f.stored? m.1 d, v.isNull = true ∨ v.scalarText?.isSome = true

instance (f : Fact) (c : Catalog) : Decidable (f.Nested c) :=
  inferInstanceAs (Decidable (∀ s ∈ c.statistics.entries, ∀ m ∈ s.2.measures.entries,
    ∀ d ∈ m.2.dimensions.keys, f.get? d = none ∧ f.get? (dimensionPath m.1 d) = none ∧
      ∀ v ∈ f.stored? m.1 d, v.isNull = true ∨ v.scalarText?.isSome = true))

theorem toList_dimensionPath (measure dimension : String) :
    (dimensionPath measure dimension).toList =
      "path".toList ++ '.' :: (measure.toList ++ '.' :: dimension.toList) := by
  simp [dimensionPath]

theorem plainName_keywordPath (measure dimension : String) :
    plainName (keywordPath measure dimension) = dimensionPath measure dimension := by
  have chars : (keywordPath measure dimension).toList =
      (dimensionPath measure dimension).toList ++ keywordSuffix := by
    unfold keywordPath keywordSuffix
    exact String.toList_append
  simp [plainName, chars]

/-- The suffix that marks exact matching is not part of a dimension's path, unless the dimension is
called like the suffix. -/
theorem plainName_dimensionPath {measure dimension : String} (dotless : Dotless dimension)
    (plain : dimension ≠ "keyword") :
    plainName (dimensionPath measure dimension) = dimensionPath measure dimension := by
  have noSuffix : ¬ keywordSuffix <:+ (dimensionPath measure dimension).toList := by
    rintro ⟨front, same⟩
    have suffix : keywordSuffix = '.' :: "keyword".toList := by
      unfold keywordSuffix
      simp
    have chars : front ++ '.' :: "keyword".toList =
        ("path".toList ++ '.' :: measure.toList) ++ '.' :: dimension.toList := by
      rw [← suffix, same, toList_dimensionPath, List.append_assoc, List.cons_append]
    have last := Text.append_cons_right_cancel (by decide) dotless chars
    exact plain (String.toList_inj.1 last).symm
  simp [plainName, noSuffix]

theorem pathOf_dimensionPath {measure dimension : String} (dotlessMeasure : Dotless measure)
    (dotlessDimension : Dotless dimension) :
    pathOf (dimensionPath measure dimension) = ["path", measure, dimension] := by
  rw [pathOf, toList_dimensionPath, Text.split_append (by decide),
    Text.split_append dotlessMeasure, Text.split_of_not_mem dotlessDimension]
  simp

/-- A field by the name of a dimension's path is the dimension as stored, if no field of the fact
bears the whole path as its name. -/
theorem field?_path {f : Fact} {measure dimension name : String} (dotlessMeasure : Dotless measure)
    (dotlessDimension : Dotless dimension) (flat : f.get? (dimensionPath measure dimension) = none)
    (plain : plainName name = dimensionPath measure dimension) :
    f.field? name = f.stored? measure dimension := by
  have one : ∀ v : Value, follow? v [dimension] = v.get? dimension := by
    intro v
    simp [follow?]
  have two : ∀ v : Value, follow? v [measure, dimension] =
      (v.get? measure).bind fun path => path.get? dimension := by
    intro v
    rw [follow?]
    exact congrArg _ (funext one)
  rw [field?, plain, flat, pathOf_dimensionPath dotlessMeasure dotlessDimension]
  exact congrArg (Option.bind (f.get? "path")) (funext two)

theorem Nested.dimension {f : Fact} {c : Catalog} (nested : f.Nested c) {statistic measure d : String}
    {m : Measure} (known : c.measure? statistic measure = some m)
    (member : m.dimensions.contains d = true) :
    f.get? d = none ∧ f.get? (dimensionPath measure d) = none ∧
      ∀ v ∈ f.stored? measure d, v.isNull = true ∨ v.scalarText?.isSome = true := by
  obtain ⟨s, outer, inner⟩ := Catalog.mem_of_measure? known
  exact nested _ outer _ inner d (SortedMap.mem_keys_iff.2 member)

section

variable {f : Fact} {c : Catalog} {statistic measure d : String} {m : Measure}
  (nested : f.Nested c) (known : c.measure? statistic measure = some m)
  (member : m.dimensions.contains d = true)

include nested known member

theorem dimension?_of_nested : f.dimension? measure d = f.storedText? measure d := by
  obtain ⟨flat, _, _⟩ := nested.dimension known member
  simp [dimension?, text?, flat, storedText?, stored?, Option.bind_assoc]

variable (dotless : c.DotlessKeys)

include dotless

/-- A listed value is looked for where the dimension is stored. -/
theorem fieldText?_keywordPath_of_nested :
    f.fieldText? (keywordPath measure d) = f.storedText? measure d := by
  obtain ⟨_, whole, _⟩ := nested.dimension known member
  rw [fieldText?, field?_path (dotless.measure known) (dotless.dimension known member) whole
    (plainName_keywordPath measure d), storedText?]

/-- A dimension is there where it is stored, unless its key is the suffix of exact matching. -/
theorem present_dimensionPath_of_nested (plain : d ≠ "keyword") :
    f.present (dimensionPath measure d) = (f.storedText? measure d).isSome := by
  obtain ⟨_, whole, text⟩ := nested.dimension known member
  have dotlessDimension := dotless.dimension known member
  rw [present, field?_path (dotless.measure known) dotlessDimension whole
    (plainName_dimensionPath dotlessDimension plain), storedText?]
  cases stored : f.stored? measure d with
  | none => rfl
  | some v =>
    have kinds := text v stored
    cases v <;> simp_all [Value.isNull, Value.scalarText?]

end

end Fact

end RegionalTables
