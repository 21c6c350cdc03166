import RegionalTables.Proofs.Catalog.Check
import RegionalTables.Service.Basic

/-! Where the rows of a base table come from. The rows of one measure are what the facts of its
statistic hold of it, in the order of the facts. -/
namespace RegionalTables

/-- The fact is of the statistic and holds a value of the measure. -/
def Fact.observes (f : Fact) (statistic measure : String) : Bool :=
  f.text? "statistic" == some statistic && !(f.measured measure).isMissing

namespace BaseTable

/-- The rows of one measure. -/
def rowsOf (t : BaseTable) (statistic measure : String) : List Observation :=
  t.observations.filter fun o => o.measure == measure && o.statistic == statistic

/-- What a row says of its fact. -/
def reading (o : Observation) : String × String × Cell := (o.region, o.time, o.value)

def readingOf (time : TimeField) (measure : String) (f : Fact) : String × String × Cell :=
  ((f.text? "region_id").getD "", (f.text? time.name).getD "", f.measured measure)

section

variable {time : TimeField} {statistic measure : String} {m : Measure} {f : Fact} {o : Observation}

/-- A fact that holds a value of the measure is observed as it is. -/
theorem observation?_eq_some_iff : observation? time statistic measure m f = some o ↔
    (f.measured measure).isMissing = false ∧ o = {
      region := (f.text? "region_id").getD ""
      time := (f.text? time.name).getD ""
      statistic, measure
      value := f.measured measure
      dimensions := m.dimensions.filterMap fun d _ => f.dimension? measure d } := by
  rw [observation?]
  cases (f.measured measure).isMissing with
  | true => simp
  | false => simp [eq_comm]

variable (made : observation? time statistic measure m f = some o)

include made

theorem observation?_pair : o.statistic = statistic ∧ o.measure = measure := by
  obtain ⟨_, rfl⟩ := observation?_eq_some_iff.1 made
  exact ⟨rfl, rfl⟩

theorem measured_of_observation? : (f.measured measure).isMissing = false ∧
    o.dimensions = m.dimensions.filterMap fun d _ => f.dimension? measure d := by
  obtain ⟨held, rfl⟩ := observation?_eq_some_iff.1 made
  exact ⟨held, rfl⟩

theorem texts_of_observation? :
    o.region = (f.text? "region_id").getD "" ∧ o.time = (f.text? time.name).getD "" := by
  obtain ⟨_, rfl⟩ := observation?_eq_some_iff.1 made
  exact ⟨rfl, rfl⟩

end

theorem map_reading_observation? (time : TimeField) (statistic measure : String) (m : Measure)
    (f : Fact) : (observation? time statistic measure m f).map reading =
      if (f.measured measure).isMissing then none else some (readingOf time measure f) := by
  simp only [observation?]
  split <;> rfl

theorem mem_ofMeasure {q : Query} {facts : List Fact} {statistic measure : String} {m : Measure}
    {o : Observation} (member : o ∈ ofMeasure q facts statistic measure m) :
    ∃ f ∈ facts, observation? q.timeField statistic measure m f = some o := by
  simp only [ofMeasure] at member
  split at member
  · exact List.mem_filterMap.1 (List.mem_filter.1 member).1
  · exact List.mem_filterMap.1 member

theorem ofMeasure_pair {q : Query} {facts : List Fact} {statistic measure : String} {m : Measure}
    {o : Observation} (member : o ∈ ofMeasure q facts statistic measure m) :
    o.statistic = statistic ∧ o.measure = measure := by
  obtain ⟨f, _, made⟩ := mem_ofMeasure member
  exact observation?_pair made

theorem ofStatistic_statistic {q : Query} {facts : List Fact} {statistic : String} {s : Statistic}
    {o : Observation} (member : o ∈ ofStatistic q facts statistic s) : o.statistic = statistic := by
  obtain ⟨_, _, inner⟩ := List.mem_flatMap.1 member
  exact (ofMeasure_pair inner).1

/-- The rows of one measure are made from the facts of its statistic alone. -/
theorem rowsOf_ofFacts (view : Catalog) (q : Query) (facts : List Fact)
    (statistic measure : String) : (ofFacts view q facts).rowsOf statistic measure =
      ((view.measure? statistic measure).map (ofMeasure q
        (facts.filter fun f => f.text? "statistic" == some statistic) statistic measure)).getD [] := by
  let own := facts.filter fun f => f.text? "statistic" == some statistic
  have outer := SortedMap.filter_flatMap_entries view.statistics (ofStatistic q facts)
    Observation.statistic (fun _ _ _ => ofStatistic_statistic) statistic
  rw [rowsOf, ← List.filter_filter, ofFacts, outer, Catalog.measure?, Catalog.statistic?]
  cases view.statistics.find? statistic with
  | none => rfl
  | some s =>
    exact SortedMap.filter_flatMap_entries s.measures (ofMeasure q own statistic) Observation.measure
      (fun _ _ _ member => (ofMeasure_pair member).2) measure

/-- Every row comes from a fact of its statistic, read for its measure in the view. -/
theorem exists_fact_of_mem {view : Catalog} {q : Query} {facts : List Fact} {o : Observation}
    (member : o ∈ (ofFacts view q facts).observations) :
    ∃ m, view.measure? o.statistic o.measure = some m ∧ ∃ f ∈ facts,
      f.text? "statistic" = some o.statistic ∧
        observation? q.timeField o.statistic o.measure m f = some o := by
  have own : o ∈ (ofFacts view q facts).rowsOf o.statistic o.measure := by
    simp [rowsOf, member]
  rw [rowsOf_ofFacts] at own
  cases known : view.measure? o.statistic o.measure with
  | none => simp [known] at own
  | some m =>
    simp only [known, Option.map_some, Option.getD_some] at own
    obtain ⟨f, kept, made⟩ := mem_ofMeasure own
    obtain ⟨stored, kind⟩ := List.mem_filter.1 kept
    exact ⟨m, rfl, f, stored, by simpa using kind, made⟩

theorem map_reading_ofMeasure {q : Query} (ordinary : q.time ≠ .last) (facts : List Fact)
    (statistic measure : String) (m : Measure) :
    (ofMeasure q facts statistic measure m).map reading =
      (facts.filter fun f => !(f.measured measure).isMissing).map (readingOf q.timeField measure) := by
  simp only [ofMeasure, if_neg ordinary, List.map_filterMap, map_reading_observation?]
  induction facts with
  | nil => rfl
  | cons f facts ih =>
    cases missing : (f.measured measure).isMissing <;> simp [missing, ih]

/-- The rows of a measure in the view are one for each fact that observes it, in store order. -/
theorem map_reading_rowsOf {view : Catalog} {q : Query} (ordinary : q.time ≠ .last)
    (facts : List Fact) {statistic measure : String} {m : Measure}
    (known : view.measure? statistic measure = some m) :
    ((ofFacts view q facts).rowsOf statistic measure).map reading =
      (facts.filter (·.observes statistic measure)).map (readingOf q.timeField measure) := by
  rw [rowsOf_ofFacts, known, Option.map_some, Option.getD_some, map_reading_ofMeasure ordinary,
    List.filter_filter]
  congr 2
  funext f
  rw [Fact.observes, Bool.and_comm]

theorem mem_cubesOf {facts : List Fact} {cube : String} :
    cube ∈ cubesOf facts ↔ ∃ f ∈ facts, f.text? "cube" = some cube := by
  rw [cubesOf, List.mem_eraseDups, List.mem_filterMap]

end BaseTable

namespace FactStore

/-- A store in memory gives the facts that pass, and never fails. -/
theorem facts_of_memory {store : FactStore} {facts : List Fact} (held : store.source = .memory facts)
    (filter : Filter) : store.facts filter = .ok (facts.filter filter.accepts) := by
  have kept : ∀ l : List Fact, (l.map (Except.ok (ε := StoreError))).mapM id = .ok l := by
    intro l
    induction l with
    | nil => rfl
    | cons f l ih => rw [List.map_cons, List.mapM_cons, ih]; rfl
  rw [FactStore.facts, search, held]
  exact kept _

end FactStore

theorem Service.baseTable_of_memory {s : Service} {facts : List Fact}
    (held : s.store.source = .memory facts) (q : Query) :
    s.baseTable q = .ok (.ofFacts (s.view q) q (facts.filter (Filter.ofQuery s.catalog q).accepts)) := by
  rw [baseTable, Service.facts, FactStore.facts_of_memory held]
  rfl

end RegionalTables
