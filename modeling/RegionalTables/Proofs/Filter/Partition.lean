import RegionalTables.Proofs.Filter.Meaning

/-! The cells of a measure divide its facts. A fact lies in the cell of exactly one set of the
measure's dimensions, the set of those it is broken down by, and a cell with listed values is the
disjoint union of the cells with one value each. -/
namespace RegionalTables

open RegionalTables.Filter

theorem SortedSet.isEmpty_eq_false_iff [Ord κ] {s : SortedSet κ} :
    s.isEmpty = false ↔ ∃ a, a ∈ s := by
  rw [isEmpty, List.isEmpty_eq_false_iff_exists_mem]
  rfl

def SortedSet.union [Ord κ] [Std.TransOrd κ] [Std.LawfulEqOrd κ] (s t : SortedSet κ) :
    SortedSet κ := s.insertAll t.toList

theorem SortedSet.mem_union [Ord κ] [Std.TransOrd κ] [Std.LawfulEqOrd κ] {s t : SortedSet κ}
    {a : κ} : a ∈ s.union t ↔ a ∈ s ∨ a ∈ t := by
  rw [union, mem_insertAll, mem_toList]

/-- Each of the dimensions with any value. -/
def Breakdown.bare (dimensions : SortedSet String) : Breakdown where
  entries := dimensions.toList.map (·, .empty)
  ascending := by simpa [List.pairwise_map] using dimensions.ascending

/-- One measure of one statistic and nothing else. -/
def Selection.single (statistic measure : String) (b : Breakdown) : Selection :=
  ⟨⟨[(statistic, ⟨[(measure, b)], List.pairwise_singleton ..⟩)], List.pairwise_singleton ..⟩⟩

/-- The query with its selection replaced by one measure. -/
def Query.asking (q : Query) (statistic measure : String) (b : Breakdown) : Query :=
  { q with data := .single statistic measure b }

/-- The fact meets the conditions of the query and holds the measure. -/
structure Query.Observes (q : Query) (statistic measure : String) (f : Fact) : Prop where
  admitted : q.Admits f
  kind : f.fieldText? "statistic" = some statistic
  measured : f.present measure = true

/-- The dimensions of a measure that are there on a fact. -/
def Measure.brokenBy (m : Measure) (measure : String) (f : Fact) : SortedSet String where
  toList := m.dimensions.keys.filter fun d => f.present (dimensionPath measure d)
  ascending := (List.pairwise_map.2 m.dimensions.ascending).filter _

theorem Measure.mem_brokenBy {m : Measure} {measure d : String} {f : Fact} :
    d ∈ m.brokenBy measure f ↔
      m.dimensions.contains d = true ∧ f.present (dimensionPath measure d) = true := by
  rw [← SortedSet.mem_toList, brokenBy, List.mem_filter, SortedMap.mem_keys_iff]

theorem Breakdown.find?_bare {X : SortedSet String} {d : String} {values : SortedSet String} :
    (bare X).find? d = some values ↔ d ∈ X ∧ values = .empty := by
  rw [SortedMap.find?_eq_some_iff, bare, List.mem_map, ← SortedSet.mem_toList]
  constructor
  · rintro ⟨_, member, same⟩
    obtain ⟨rfl, rfl⟩ := Prod.mk.inj same
    exact ⟨member, rfl⟩
  · rintro ⟨member, rfl⟩
    exact ⟨d, member, rfl⟩

theorem Breakdown.contains_bare {X : SortedSet String} {d : String} :
    (bare X).contains d = true ↔ d ∈ X := by
  simp [SortedMap.contains_iff, find?_bare]

theorem Selection.measure?_single {statistic measure s m : String} {b b' : Breakdown} :
    (single statistic measure b).measure? s m = some b' ↔ s = statistic ∧ m = measure ∧ b' = b := by
  rw [measure?_eq_some_iff, single]
  constructor
  · rintro ⟨choice, outer, inner⟩
    obtain ⟨rfl, rfl⟩ := Prod.mk.inj (List.mem_singleton.1 outer)
    obtain ⟨rfl, rfl⟩ := Prod.mk.inj (List.mem_singleton.1 inner)
    exact ⟨rfl, rfl, rfl⟩
  · rintro ⟨rfl, rfl, rfl⟩
    exact ⟨_, List.mem_singleton_self _, List.mem_singleton_self _⟩

theorem Selection.substantial_single (statistic measure : String) (b : Breakdown) :
    (single statistic measure b).Substantial where
  statistics := by simp [single]
  measures := by simp [single]

theorem Query.admits_asking {q : Query} {statistic measure : String} {b : Breakdown} {f : Fact} :
    (q.asking statistic measure b).Admits f ↔ q.Admits f :=
  ⟨fun h => ⟨h.region, h.level, h.time, h.parent⟩, fun h => ⟨h.region, h.level, h.time, h.parent⟩⟩

namespace Filter

variable {c : Catalog} {q : Query} {statistic measure : String} {m : Measure} {b : Breakdown}
  {f : Fact}

/-- The filter for one measure accepts the facts that hold it, broken down as asked. -/
theorem accepts_asking : accepts f (ofQuery c (q.asking statistic measure b)) = true ↔
    q.Observes statistic measure f ∧ f.BrokenDown c statistic measure b := by
  rw [accepts_ofQuery (Selection.substantial_single statistic measure b), Query.admits_asking]
  simp only [Query.asking, Selection.measure?_single]
  constructor
  · rintro ⟨admitted, _, _, _, ⟨rfl, rfl, rfl⟩, inside⟩
    exact ⟨⟨admitted, inside.kind, inside.measured⟩, inside.toBrokenDown⟩
  · rintro ⟨observed, broken⟩
    exact ⟨observed.admitted, _, _, _, ⟨rfl, rfl, rfl⟩, broken, observed.kind, observed.measured⟩

theorem brokenDown_bare_iff (known : c.measure? statistic measure = some m) {X : SortedSet String}
    (within : ∀ d ∈ X, m.dimensions.contains d = true) :
    f.BrokenDown c statistic measure (.bare X) ↔ X = m.brokenBy measure f := by
  constructor
  · intro broken
    apply SortedSet.ext_mem
    intro d
    rw [Measure.mem_brokenBy]
    constructor
    · intro chosen
      exact ⟨within d chosen, broken.broken d _ (Breakdown.find?_bare.2 ⟨chosen, rfl⟩) rfl⟩
    · rintro ⟨member, there⟩
      by_cases chosen : d ∈ X
      · exact chosen
      · have absent := broken.others m known d member
          (by simpa using mt Breakdown.contains_bare.1 chosen)
        rw [there] at absent
        contradiction
  · rintro rfl
    refine ⟨fun d values choice _ => ?_, fun d values choice some => ?_,
      fun n same d member other => ?_⟩
    · exact (Measure.mem_brokenBy.1 (Breakdown.find?_bare.1 choice).1).2
    · rw [(Breakdown.find?_bare.1 choice).2] at some
      contradiction
    · obtain rfl := Option.some.inj (known.symm.trans same)
      cases there : f.present (dimensionPath measure d) with
      | false => rfl
      | true =>
        have chosen := Measure.mem_brokenBy.2 ⟨member, there⟩
        rw [Breakdown.contains_bare.2 chosen] at other
        contradiction

/-- The fact is broken down as the breakdown says, leaving one dimension out of account. -/
structure BrokenDownBeside (f : Fact) (c : Catalog) (statistic measure : String) (b : Breakdown)
    (d : String) : Prop where
  broken : ∀ e values, e ≠ d → b.find? e = some values → values.isEmpty = true →
    f.present (dimensionPath measure e) = true
  listed : ∀ e values, e ≠ d → b.find? e = some values → values.isEmpty = false →
    ∃ value ∈ values, f.fieldText? (keywordPath measure e) = some value
  others : ∀ m, c.measure? statistic measure = some m → ∀ e, e ≠ d →
    m.dimensions.contains e = true → b.contains e = false →
      f.present (dimensionPath measure e) = false

theorem brokenDown_insert_iff {d : String} {values : SortedSet String}
    (filled : values.isEmpty = false) : f.BrokenDown c statistic measure (b.insert d values) ↔
      (∃ value ∈ values, f.fieldText? (keywordPath measure d) = some value) ∧
        BrokenDownBeside f c statistic measure b d := by
  have own : (b.insert d values).find? d = some values := by
    rw [SortedMap.find?_insert, if_pos rfl]
  have other : ∀ e, e ≠ d → (b.insert d values).find? e = b.find? e := fun e apart => by
    rw [SortedMap.find?_insert, if_neg apart]
  constructor
  · intro broken
    refine ⟨broken.listed d values own filled, ?_, ?_, ?_⟩
    · intro e others apart choice
      exact broken.broken e others (by rw [other e apart, choice])
    · intro e others apart choice
      exact broken.listed e others (by rw [other e apart, choice])
    · intro m known e apart member unselected
      exact broken.others m known e member (by rwa [SortedMap.contains, other e apart])
  · rintro ⟨listed, beside⟩
    refine ⟨fun e others choice none => ?_, fun e others choice some => ?_,
      fun m known e member unselected => ?_⟩
    · by_cases same : e = d
      · subst same
        rw [own] at choice
        obtain rfl := Option.some.inj choice
        rw [none] at filled
        contradiction
      · exact beside.broken e others same (by rwa [other e same] at choice) none
    · by_cases same : e = d
      · subst same
        rw [own] at choice
        obtain rfl := Option.some.inj choice
        exact listed
      · exact beside.listed e others same (by rwa [other e same] at choice) some
    · have apart : e ≠ d := fun same => by
        rw [SortedMap.contains, same, own] at unselected
        contradiction
      rw [SortedMap.contains, other e apart] at unselected
      exact beside.others m known e apart member unselected

/-- Of all sets of a measure's dimensions, the fact passes the filter for exactly the set of those it
is broken down by, if it holds the measure and meets the conditions, and for none otherwise. A
dimension with values from a union of two sets stands for the facts with a value from one of them,
and for no fact twice if the sets are disjoint. -/
theorem cells_partition (known : c.measure? statistic measure = some m) (q : Query) :
    (∀ f X, (∀ d ∈ X, m.dimensions.contains d = true) →
      (accepts f (ofQuery c (q.asking statistic measure (.bare X))) = true ↔
        q.Observes statistic measure f ∧ X = m.brokenBy measure f)) ∧
    (∀ f d, d ∈ m.brokenBy measure f ↔
      m.dimensions.contains d = true ∧ f.present (dimensionPath measure d) = true) ∧
    ∀ (b : Breakdown) (d : String) (A B : SortedSet String), A.isEmpty = false → B.isEmpty = false →
      ∀ f, (accepts f (ofQuery c (q.asking statistic measure (b.insert d (A.union B)))) = true ↔
          accepts f (ofQuery c (q.asking statistic measure (b.insert d A))) = true ∨
          accepts f (ofQuery c (q.asking statistic measure (b.insert d B))) = true) ∧
        ((∀ value ∈ A, value ∉ B) →
          ¬ (accepts f (ofQuery c (q.asking statistic measure (b.insert d A))) = true ∧
            accepts f (ofQuery c (q.asking statistic measure (b.insert d B))) = true)) := by
  refine ⟨fun f X within => ?_, fun f d => Measure.mem_brokenBy, fun b d A B someA someB f => ?_⟩
  · rw [accepts_asking, brokenDown_bare_iff known within]
  · have someUnion : (A.union B).isEmpty = false := by
      obtain ⟨value, member⟩ := SortedSet.isEmpty_eq_false_iff.1 someA
      exact SortedSet.isEmpty_eq_false_iff.2 ⟨value, SortedSet.mem_union.2 (.inl member)⟩
    simp only [accepts_asking, brokenDown_insert_iff someA, brokenDown_insert_iff someB,
      brokenDown_insert_iff someUnion, SortedSet.mem_union]
    constructor
    · constructor
      · rintro ⟨observed, ⟨value, left | right, text⟩, beside⟩
        · exact .inl ⟨observed, ⟨value, left, text⟩, beside⟩
        · exact .inr ⟨observed, ⟨value, right, text⟩, beside⟩
      · rintro (⟨observed, ⟨value, left, text⟩, beside⟩ | ⟨observed, ⟨value, right, text⟩, beside⟩)
        · exact ⟨observed, ⟨value, .inl left, text⟩, beside⟩
        · exact ⟨observed, ⟨value, .inr right, text⟩, beside⟩
    · rintro disjoint ⟨⟨_, ⟨value, left, text⟩, _⟩, _, ⟨value', right, text'⟩, _⟩
      obtain rfl := Option.some.inj (text.symm.trans text')
      exact disjoint value left right

end Filter

/-- The measure of the sample catalog. -/
def Sample.population : Measure where
  key := "BEVSTD"
  name := "Bevölkerung"
  levels := none
  dimensions := .ofList [
    ("GES", ⟨"GES", "Geschlecht", [⟨"GESM", "männlich"⟩, ⟨"GESW", "weiblich"⟩]⟩),
    ("NAT", ⟨"NAT", "Nationalität", [⟨"NATA", "Ausländer"⟩]⟩)]

/-- The sample fact counts women, so it is broken down by sex alone, and men are another cell. -/
theorem Filter.women_in_one_cell :
    Sample.catalog.measure? "12411" "BEVSTD" = some Sample.population ∧
      (∀ d ∈ SortedSet.ofList ["GES"], Sample.population.dimensions.contains d = true) ∧
      (SortedSet.ofList ["GESW"]).isEmpty = false ∧ (SortedSet.ofList ["GESM"]).isEmpty = false ∧
      (∀ value ∈ SortedSet.ofList ["GESW"], value ∉ SortedSet.ofList ["GESM"]) ∧
      (Sample.query.Observes "12411" "BEVSTD" Sample.women ∧
        .ofList ["GES"] = Sample.population.brokenBy "BEVSTD" Sample.women) ∧
      accepts Sample.women (ofQuery Sample.catalog (Sample.query.asking "12411" "BEVSTD"
        (SortedMap.empty.insert "GES" (.ofList ["GESM"])))) = false := by
  have known : Sample.catalog.measure? "12411" "BEVSTD" = some Sample.population := by
    decide +kernel
  have within : ∀ d ∈ SortedSet.ofList ["GES"], Sample.population.dimensions.contains d = true := by
    intro d member
    obtain rfl : d = "GES" := by simpa using member
    decide +kernel
  have women : (SortedSet.ofList ["GESW"]).isEmpty = false := by decide
  have men : (SortedSet.ofList ["GESM"]).isEmpty = false := by decide
  have disjoint : ∀ value ∈ SortedSet.ofList ["GESW"], value ∉ SortedSet.ofList ["GESM"] := by
    simp
  obtain ⟨bare, _, values⟩ := cells_partition known Sample.query
  obtain ⟨_, once⟩ := values .empty "GES" _ _ women men Sample.women
  have asBare : accepts Sample.women (ofQuery Sample.catalog (Sample.query.asking "12411" "BEVSTD"
      (.bare (.ofList ["GES"])))) = true := by decide +kernel
  have asWomen : accepts Sample.women (ofQuery Sample.catalog (Sample.query.asking "12411" "BEVSTD"
      (SortedMap.empty.insert "GES" (.ofList ["GESW"])))) = true := by decide +kernel
  refine ⟨known, within, women, men, disjoint, (bare _ _ within).1 asBare, ?_⟩
  simpa using fun asMen => once disjoint ⟨asWomen, asMen⟩

end RegionalTables
