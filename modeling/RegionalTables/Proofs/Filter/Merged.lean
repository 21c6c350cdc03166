import RegionalTables.Proofs.Filter.Partition

/-! What further entries do to the facts that pass for one of them. Values that several entries list
in a dimension are put together. But any value is written as none, so that an entry that leaves a
dimension open is narrowed by one that lists values in it. -/
namespace RegionalTables

open RegionalTables.Filter

/-- The query with the entries as its data. -/
def Query.about (q : Query) (es : List Entry) : Query := { q with data := .merge es }

namespace Entry

/-- Of the measure of the entry, no other dimensions are listed. -/
def Alike (e e' : Entry) : Prop :=
  e.statistic = e'.statistic → e.measure = e'.measure →
    ∀ d, (∃ part ∈ e.parts, part.1 = d) ↔ ∃ part ∈ e'.parts, part.1 = d

/-- The entry lists the dimension and no value in it. -/
structure Open (e : Entry) (d : String) : Prop where
  listed : e.Asks (.dimension e.statistic e.measure d)
  any : ∀ value, ¬ e.Asks (.value e.statistic e.measure d value)

end Entry

namespace Fact

/-- In each dimension that the entry leaves open, the fact has a value that one of the entries lists,
if they list any. -/
def Keeps (f : Fact) (es : List Entry) (e : Entry) : Prop := ∀ d, e.Open d →
  (∃ e' ∈ es, ∃ value, e'.Asks (.value e.statistic e.measure d value)) →
    ∃ e' ∈ es, ∃ value, e'.Asks (.value e.statistic e.measure d value) ∧
      f.fieldText? (keywordPath e.measure d) = some value

/-- The fact lies in the cell of another measure that is asked for. -/
def Elsewhere (f : Fact) (c : Catalog) (es : List Entry) (e : Entry) : Prop :=
  ∃ statistic measure b, (Selection.merge es).measure? statistic measure = some b ∧
    ¬ (statistic = e.statistic ∧ measure = e.measure) ∧ f.InCell c statistic measure b

end Fact

theorem Query.admits_about {q : Query} {es : List Entry} {f : Fact} :
    (q.about es).Admits f ↔ q.Admits f :=
  ⟨fun h => ⟨h.region, h.level, h.time, h.parent⟩, fun h => ⟨h.region, h.level, h.time, h.parent⟩⟩

namespace Filter

variable {c : Catalog} {q : Query} {es : List Entry} {e : Entry} {f : Fact}

theorem accepts_about (member : e ∈ es) : accepts f (ofQuery c (q.about es)) = true ↔
    q.Admits f ∧ ∃ statistic measure b, (Selection.merge es).measure? statistic measure = some b ∧
      f.InCell c statistic measure b := by
  rw [accepts_ofQuery (Selection.substantial_merge member), Query.admits_about]
  rfl

/-- More listed values admit more, unless there were none, which admits any. -/
theorem accepts_required_of_subset {measure d : String} {values values' : SortedSet String}
    (within : ∀ value ∈ values, value ∈ values')
    (own : accepts f (required measure (d, values)) = true) :
    accepts f (required measure (d, values')) = true ↔
      (values.isEmpty = true → values'.isEmpty = false →
        ∃ value ∈ values', f.fieldText? (keywordPath measure d) = some value) := by
  rw [accepts_required] at own ⊢
  constructor
  · rintro ⟨_, listed⟩ _ some
    exact listed some
  · intro kept
    cases empty : values.isEmpty with
    | true => exact ⟨fun _ => own.1 empty, kept empty⟩
    | false =>
      obtain ⟨value, listed, text⟩ := own.2 empty
      have there := within value listed
      refine ⟨fun none => ?_, fun _ => ⟨value, there, text⟩⟩
      rw [SortedSet.isEmpty_eq_false_iff.2 ⟨value, there⟩] at none
      contradiction

section

variable {b b' : Breakdown} (member : e ∈ es) (alike : ∀ e' ∈ es, e.Alike e')
  (own : (Selection.merge [e]).measure? e.statistic e.measure = some b)
  (whole : (Selection.merge es).measure? e.statistic e.measure = some b')

include whole in
/-- The values that the merge lists in a dimension are those of the entries. -/
theorem exists_merged_iff {d : String} {values' : SortedSet String}
    (found : b'.find? d = some values') (p : String → Prop) : (∃ value ∈ values', p value) ↔
      ∃ e' ∈ es, ∃ value, e'.Asks (.value e.statistic e.measure d value) ∧ p value := by
  simp only [Selection.mem_merge whole found]
  constructor
  · rintro ⟨value, ⟨e', among, asks⟩, holds⟩
    exact ⟨e', among, value, asks, holds⟩
  · rintro ⟨e', among, value, asks, holds⟩
    exact ⟨value, ⟨e', among, asks⟩, holds⟩

include own

/-- The dimensions that an entry leaves open are those with any value. -/
theorem open_iff {d : String} {values : SortedSet String} (here : b.find? d = some values) :
    e.Open d ↔ values.isEmpty = true := by
  rw [Selection.isEmpty_merge own here]
  constructor
  · rintro leaves e' only value
    exact List.mem_singleton.1 only ▸ leaves.any value
  · intro none
    obtain ⟨e', only, asks⟩ :=
      (Selection.contains_merge own).1 (SortedMap.contains_iff.2 ⟨values, here⟩)
    exact ⟨List.mem_singleton.1 only ▸ asks, none e (List.mem_singleton_self e)⟩

include whole member

theorem subset_merged {d : String} {values values' : SortedSet String}
    (here : b.find? d = some values) (found : b'.find? d = some values') :
    ∀ value ∈ values, value ∈ values' := by
  intro value listed
  obtain ⟨e', only, asks⟩ := (Selection.mem_merge own here).1 listed
  exact (Selection.mem_merge whole found).2 ⟨e, member, List.mem_singleton.1 only ▸ asks⟩

/-- What passes for the entry in one dimension passes for the merge, but where the entry leaves the
dimension open it has to have one of the values that the merge lists. -/
theorem required_merged_iff {d : String} {values values' : SortedSet String}
    (here : b.find? d = some values) (found : b'.find? d = some values')
    (passed : accepts f (required e.measure (d, values)) = true) :
    accepts f (required e.measure (d, values')) = true ↔ (e.Open d →
      (∃ e' ∈ es, ∃ value, e'.Asks (.value e.statistic e.measure d value)) →
        ∃ e' ∈ es, ∃ value, e'.Asks (.value e.statistic e.measure d value) ∧
          f.fieldText? (keywordPath e.measure d) = some value) := by
  have listed := exists_merged_iff whole found fun _ => True
  have matching := exists_merged_iff whole found fun value =>
    f.fieldText? (keywordPath e.measure d) = some value
  simp only [and_true] at listed
  rw [accepts_required_of_subset (subset_merged member own whole here found) passed,
    open_iff own here, SortedSet.isEmpty_eq_false_iff, listed, matching]

include alike

/-- The merge breaks the measure down by the dimensions of the entry. -/
theorem contains_merged (d : String) : b'.contains d = b.contains d := by
  rw [Bool.eq_iff_iff, Selection.contains_merge whole, Selection.contains_merge own]
  constructor
  · rintro ⟨e', among, ⟨statistic, measure⟩, listed⟩
    exact ⟨e, List.mem_singleton_self e, ⟨rfl, rfl⟩,
      (alike e' among statistic.symm measure.symm d).2 listed⟩
  · rintro ⟨e', only, asks⟩
    obtain rfl := List.mem_singleton.1 only
    exact ⟨e', member, asks⟩

/-- A fact in the cell of the entry is in the merged cell if it keeps to what the merge makes of the
dimensions that the entry leaves open. -/
theorem inCell_merged_iff (inside : f.InCell c e.statistic e.measure b) :
    f.InCell c e.statistic e.measure b' ↔ f.Keeps es e := by
  have same := contains_merged member alike own whole
  obtain ⟨measured, required, others⟩ := accepts_cell.1 ((accepts_cell_iff_inCell inside.kind).2 inside)
  rw [← accepts_cell_iff_inCell inside.kind, accepts_cell]
  constructor
  · rintro ⟨_, merged, _⟩ d leaves
    have listed : b.contains d = true :=
      (Selection.contains_merge own).2 ⟨e, List.mem_singleton_self e, leaves.listed⟩
    obtain ⟨values, here⟩ := SortedMap.contains_iff.1 listed
    obtain ⟨values', found⟩ := SortedMap.contains_iff.1 ((same d).trans listed)
    exact (required_merged_iff member own whole here found (required d values here)).1
      (merged d values' found) leaves
  · intro keeps
    refine ⟨measured, fun d values' found => ?_, fun m known d declared unselected =>
      others m known d declared (same d ▸ unselected)⟩
    obtain ⟨values, here⟩ := SortedMap.contains_iff.1
      (same d ▸ SortedMap.contains_iff.2 ⟨values', found⟩)
    exact (required_merged_iff member own whole here found (required d values here)).2 (keeps d)

end

/-- A fact that passes for one entry passes for all of them together exactly if it keeps to what the
merge makes of the dimensions that this entry leaves open, or lies in the cell of another measure. So
nothing is lost where no dimension is asked for both without values and with some. -/
theorem accepts_merged_iff (member : e ∈ es) (alike : ∀ e' ∈ es, e.Alike e')
    (alone : accepts f (ofQuery c (q.about [e])) = true) :
    (accepts f (ofQuery c (q.about es)) = true ↔ f.Keeps es e ∨ f.Elsewhere c es e) ∧
      ((∀ d, e.Open d → ∀ e' ∈ es, ∀ value, ¬ e'.Asks (.value e.statistic e.measure d value)) →
        accepts f (ofQuery c (q.about es)) = true) := by
  obtain ⟨admitted, statistic, measure, b, own, inside⟩ :=
    (accepts_about (List.mem_singleton_self e)).1 alone
  obtain ⟨rfl, rfl⟩ : e.statistic = statistic ∧ e.measure = measure := by
    obtain ⟨e', only, same⟩ := Selection.isSome_measure?_merge.1 (Option.isSome_iff_exists.2 ⟨b, own⟩)
    exact List.mem_singleton.1 only ▸ same
  obtain ⟨b', whole⟩ := Option.isSome_iff_exists.1
    (Selection.isSome_measure?_merge.2 ⟨e, member, rfl, rfl⟩)
  have here := inCell_merged_iff member alike own whole inside
  have together : accepts f (ofQuery c (q.about es)) = true ↔ f.Keeps es e ∨ f.Elsewhere c es e := by
    rw [accepts_about member, and_iff_right admitted]
    constructor
    · rintro ⟨statistic, measure, breakdown, selected, there⟩
      by_cases same : statistic = e.statistic ∧ measure = e.measure
      · obtain ⟨rfl, rfl⟩ := same
        obtain rfl := Option.some.inj (whole.symm.trans selected)
        exact .inl (here.1 there)
      · exact .inr ⟨statistic, measure, breakdown, selected, same, there⟩
    · rintro (keeps | ⟨statistic, measure, breakdown, selected, _, there⟩)
      · exact ⟨_, _, b', whole, here.2 keeps⟩
      · exact ⟨statistic, measure, breakdown, selected, there⟩
  refine ⟨together, fun unlisted => together.2 (.inl ?_)⟩
  rintro d leaves ⟨e', among, value, asks⟩
  exact absurd asks (unlisted d leaves e' among value)

end Filter

namespace Sample

/-- The population by sex, whatever the sex. -/
def anySex : Entry := ⟨"12411", "BEVSTD", [("GES", [])]⟩

def womenOnly : Entry := ⟨"12411", "BEVSTD", [("GES", ["GESW"])]⟩

def menOnly : Entry := ⟨"12411", "BEVSTD", [("GES", ["GESM"])]⟩

end Sample

theorem Filter.women_kept_among_women :
    (∀ e ∈ [Sample.anySex, Sample.womenOnly], Sample.anySex.Alike e) ∧
      accepts Sample.women (ofQuery Sample.catalog (Sample.query.about [Sample.anySex])) = true ∧
      Sample.women.Keeps [Sample.anySex, Sample.womenOnly] Sample.anySex ∧
      accepts Sample.women
        (ofQuery Sample.catalog (Sample.query.about [Sample.anySex, Sample.womenOnly])) = true := by
  have alike : ∀ e ∈ [Sample.anySex, Sample.womenOnly], Sample.anySex.Alike e := by
    simp [Entry.Alike, Sample.anySex, Sample.womenOnly, eq_comm]
  have alone : accepts Sample.women
      (ofQuery Sample.catalog (Sample.query.about [Sample.anySex])) = true := by decide +kernel
  have keeps : Sample.women.Keeps [Sample.anySex, Sample.womenOnly] Sample.anySex := by
    intro d leaves _
    obtain rfl : "GES" = d := by simpa [Entry.Asks, Sample.anySex] using leaves.listed
    exact ⟨Sample.womenOnly, by simp, "GESW", by simp [Entry.Asks, Sample.anySex, Sample.womenOnly],
      by decide +kernel⟩
  exact ⟨alike, alone, keeps,
    (accepts_merged_iff (List.mem_cons_self ..) alike alone).1.2 (.inl keeps)⟩

/-- Women pass where the population is asked for by sex. They no longer pass where men are asked for
besides, although both entries list the same dimension. -/
theorem Filter.women_lost_beside_men :
    (∀ e ∈ [Sample.anySex, Sample.menOnly], ∀ e' ∈ [Sample.anySex, Sample.menOnly], e.Alike e') ∧
      Sample.anySex.text = "12411:BEVSTD(GES)" ∧ Sample.menOnly.text = "12411:BEVSTD(GES:GESM)" ∧
      accepts Sample.women (ofQuery Sample.catalog (Sample.query.about [Sample.anySex])) = true ∧
      accepts Sample.women
        (ofQuery Sample.catalog (Sample.query.about [Sample.anySex, Sample.menOnly])) = false ∧
      (Query.read "data=12411:BEVSTD(GES)&time=all&region=all&level=all").map
        (fun q => accepts Sample.women (ofQuery Sample.catalog q)) = .ok true ∧
      (Query.read "data=12411:BEVSTD(GES),12411:BEVSTD(GES:GESM)&time=all&region=all&level=all").map
        (fun q => accepts Sample.women (ofQuery Sample.catalog q)) = .ok false := by
  refine ⟨?_, by decide +kernel, by decide +kernel, by decide +kernel, by decide +kernel,
    by decide +kernel, by decide +kernel⟩
  simp [Entry.Alike, Sample.anySex, Sample.menOnly]

end RegionalTables
