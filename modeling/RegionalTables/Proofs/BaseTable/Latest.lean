import RegionalTables.Proofs.BaseTable.ClosedWorld
import RegionalTables.Proofs.Text.Order

/-! The latest time. It is settled after retrieval and for each measure on its own, so what a query
for the latest time gives is a part of what it gives for all times. -/
namespace RegionalTables

/-- The same query for all times, read from a text of its own. -/
def Query.throughout (q : Query) (text : String) : Query := { q with time := .all, source := text }

namespace BaseTable

section

variable {l : List Observation}

/-- The greatest of the times, the empty text counted in. -/
theorem max?_times : ("" :: l.map (·.time)).max? = some (latest l) := by
  rw [List.max?_cons', latest, List.foldl_map]
  congr 2
  funext time o
  rw [max_def_lt]

theorem time_le_latest {o : Observation} (member : o ∈ l) : o.time ≤ latest l :=
  (List.max?_eq_some_iff.1 max?_times).2 _ (List.mem_cons_of_mem _ (List.mem_map_of_mem member))

/-- If there are rows, one of them has the latest time. -/
theorem exists_latest (nonempty : l ≠ []) : ∃ o ∈ l, o.time = latest l := by
  obtain first | member := List.mem_cons.1 (List.max?_eq_some_iff.1 max?_times).1
  · obtain ⟨o, member⟩ := List.exists_mem_of_ne_nil l nonempty
    have below := time_le_latest member
    have least : latest l ≤ o.time := by
      rw [first, String.le_iff_toList_le]
      exact not_lt.1 (List.not_lt_nil _)
    exact ⟨o, member, le_antisymm below least⟩
  · exact List.mem_map.1 member

/-- A row has the latest time if and only if no row has a later one. -/
theorem time_eq_latest_iff {o : Observation} (member : o ∈ l) :
    o.time = latest l ↔ ∀ p ∈ l, ¬ Text.bytesBelow o.time p.time := by
  simp only [Text.bytesBelow_iff, not_lt]
  constructor
  · intro last p other
    rw [last]
    exact time_le_latest other
  · intro none
    obtain ⟨p, other, last⟩ := exists_latest (List.ne_nil_of_mem member)
    exact le_antisymm (time_le_latest member) (last ▸ none p other)

theorem keepLatest_eq_nil_iff : keepLatest l = [] ↔ l = [] := by
  constructor
  · intro none
    by_contra nonempty
    obtain ⟨o, member, last⟩ := exists_latest nonempty
    have kept : o ∈ keepLatest l := List.mem_filter.2 ⟨member, by simpa using last⟩
    rw [none] at kept
    contradiction
  · rintro rfl
    rfl

end

/-- No row of the same measure has a later time, as the bytes of the texts go. -/
def Latest (t : BaseTable) (o : Observation) : Prop :=
  ∀ p ∈ t.rowsOf o.statistic o.measure, ¬ Text.bytesBelow o.time p.time

instance (t : BaseTable) (o : Observation) : Decidable (t.Latest o) :=
  decidable_of_iff (∀ p ∈ t.rowsOf o.statistic o.measure, ¬ o.time < p.time)
    (by simp only [Latest, Text.bytesBelow_iff])

theorem filter_observations (view : Catalog) (q : Query) (facts : List Fact)
    (p : Observation → Bool) : (ofFacts view q facts).observations.filter p =
      view.statistics.entries.flatMap fun (statistic, s) =>
        s.measures.entries.flatMap fun (measure, m) =>
          (ofMeasure q (facts.filter fun f => f.text? "statistic" == some statistic) statistic measure
            m).filter p := by
  simp only [ofFacts, ofStatistic, List.filter_flatMap]

section

variable {q : Query} (last : q.time = .last) (text : String)

include last

theorem ofMeasure_last (facts : List Fact) (statistic measure : String) (m : Measure) :
    ofMeasure q facts statistic measure m =
      keepLatest (ofMeasure (q.throughout text) facts statistic measure m) := by
  rw [ofMeasure, if_pos last]
  rfl

/-- The rows of a measure under the latest time are its latest ones of all. -/
theorem rowsOf_last (view : Catalog) (facts : List Fact) (statistic measure : String) :
    (ofFacts view q facts).rowsOf statistic measure =
      keepLatest ((ofFacts view (q.throughout text) facts).rowsOf statistic measure) := by
  rw [rowsOf_ofFacts, rowsOf_ofFacts]
  cases view.measure? statistic measure with
  | none => rfl
  | some m => exact ofMeasure_last last text ..

/-- Measure by measure the latest rows are kept, in their places. -/
theorem observations_last (view : Catalog) (facts : List Fact) :
    (ofFacts view q facts).observations =
      (ofFacts view (q.throughout text) facts).observations.filter
        (ofFacts view (q.throughout text) facts).Latest := by
  rw [filter_observations]
  refine List.flatMap_congr fun (statistic, s) listed => List.flatMap_congr fun (measure, m) held => ?_
  have known := Catalog.measure?_eq_some_iff.2 ⟨s, listed, held⟩
  have rows := rowsOf_ofFacts view (q.throughout text) facts statistic measure
  simp only [known, Option.map_some, Option.getD_some] at rows
  dsimp only
  rw [ofMeasure_last last text, keepLatest, ← rows]
  refine List.filter_congr fun o member => ?_
  obtain ⟨rfl, rfl⟩ := ofMeasure_pair (rows ▸ member)
  rw [Bool.eq_iff_iff, beq_iff_eq, decide_eq_true_eq]
  exact time_eq_latest_iff member

end

/-- Times of digits are compared as numbers. -/
theorem keepLatest_of_digits {l : List Observation} {n : Nat}
    (digits : ∀ o ∈ l, Text.Digits n o.time) :
    keepLatest l = l.filter fun o => ∀ p ∈ l, Text.decimal p.time ≤ Text.decimal o.time := by
  refine List.filter_congr fun o member => ?_
  rw [Bool.eq_iff_iff, beq_iff_eq, decide_eq_true_eq]
  refine (time_eq_latest_iff member).trans (forall₂_congr fun p other => ?_)
  rw [Text.bytesBelow_iff, ← Text.decimal_lt_iff (digits o member) (digits p other), Nat.not_lt]

end BaseTable

namespace Service

/-- No time is asked of the facts, be it all times or the latest one. -/
theorem facts_throughout (s : Service) {q : Query} (last : q.time = .last) (text : String) :
    s.facts (q.throughout text) = s.facts q := by
  have untimed : Filter.time q = none := by rw [Filter.time, last]
  have same : Filter.ofQuery s.catalog (q.throughout text) = Filter.ofQuery s.catalog q := by
    simp only [Filter.ofQuery, Filter.conditions, untimed]
    rfl
  rw [Service.facts, Service.facts, same]

/-- The latest time gives the rows of all times that no row of the same measure is later than, in
their order and with the same cubes. No measure that has rows loses all of them, and those kept are
of one time. Where the times of a measure are digits of one length that is the greatest number. -/
theorem latest_of_throughout {s : Service} {facts : List Fact} {q : Query}
    (held : s.store.source = .memory facts) (last : q.time = .last) (text : String) :
    ∃ t u, s.baseTable (q.throughout text) = .ok t ∧ s.baseTable q = .ok u ∧
      u.cubes = t.cubes ∧ u.observations = t.observations.filter t.Latest ∧
      ∀ statistic measure,
        (u.rowsOf statistic measure = [] ↔ t.rowsOf statistic measure = []) ∧
        (∀ o ∈ u.rowsOf statistic measure, ∀ p ∈ u.rowsOf statistic measure, o.time = p.time) ∧
        ∀ n, (∀ o ∈ t.rowsOf statistic measure, Text.Digits n o.time) →
          u.rowsOf statistic measure = (t.rowsOf statistic measure).filter fun o =>
            ∀ p ∈ t.rowsOf statistic measure, Text.decimal p.time ≤ Text.decimal o.time := by
  have found : s.facts q = .ok (s.passing q facts) := FactStore.facts_of_memory held _
  have whole : s.baseTable (q.throughout text) =
      .ok (.ofFacts (s.view q) (q.throughout text) (s.passing q facts)) := by
    rw [baseTable, facts_throughout s last, found]
    rfl
  refine ⟨_, _, whole, baseTable_of_memory held q, rfl, BaseTable.observations_last last text ..,
    fun statistic measure => ?_⟩
  rw [BaseTable.rowsOf_last last text]
  refine ⟨BaseTable.keepLatest_eq_nil_iff, fun o member p other => ?_, fun n digits =>
    BaseTable.keepLatest_of_digits digits⟩
  have first := (List.mem_filter.1 member).2
  have second := (List.mem_filter.1 other).2
  rw [beq_iff_eq] at first second
  exact first.trans second.symm

end Service

namespace Sample

/-- In the next year the births were counted without regard to sex alone. -/
def bornLater : Fact := .ofList [
  ("BEV001", .byte 3),
  ("region_id", .string "11"),
  ("statistic", .string "12612"),
  ("year", .string "2016")]

def latestText : String := "data=12612:BEV001,12612:BEV002&region=11&time=last"

def latestQuery : Query := { birthQuery with time := .last, source := latestText }

def bothYears : Service := ⟨births, names, ⟨"genesis", .memory [born, bornLater]⟩⟩

end Sample

/-- Each count is given for its own latest year. -/
theorem Service.births_of_latest_years :
    Sample.bothYears.parse Sample.latestText = .ok Sample.latestQuery ∧
      Sample.bothYears.parse Sample.birthText =
        .ok (Sample.latestQuery.throughout Sample.birthText) ∧
      Sample.latestQuery.time = .last ∧
      ∃ t u, Sample.bothYears.baseTable (Sample.latestQuery.throughout Sample.birthText) = .ok t ∧
        Sample.bothYears.baseTable Sample.latestQuery = .ok u ∧
        t.observations.map (fun o => (o.measure, o.time)) =
          [("BEV001", "2015"), ("BEV001", "2016"), ("BEV002", "2015")] ∧
        u.observations.map (fun o => (o.measure, o.time)) =
          [("BEV001", "2016"), ("BEV002", "2015")] ∧
        u.rowsOf "12612" "BEV001" = (t.rowsOf "12612" "BEV001").filter fun o =>
          ∀ p ∈ t.rowsOf "12612" "BEV001", Text.decimal p.time ≤ Text.decimal o.time := by
  have last : Sample.latestQuery.time = .last := rfl
  have all : Sample.bothYears.baseTable (Sample.latestQuery.throughout Sample.birthText) =
      .ok ⟨[⟨"11", "2015", "12612", "BEV001", .integer 1, .empty⟩,
        ⟨"11", "2016", "12612", "BEV001", .integer 3, .empty⟩,
        ⟨"11", "2015", "12612", "BEV002", .integer 2, .empty⟩], []⟩ := by decide +kernel
  obtain ⟨t, u, whole, made, _, kept, each⟩ :=
    latest_of_throughout (s := Sample.bothYears) rfl last Sample.birthText
  obtain rfl := Except.ok.inj (all.symm.trans whole)
  refine ⟨by decide +kernel, by decide +kernel, last, _, u, whole, made, rfl, ?_, ?_⟩
  · rw [kept]
    decide +kernel
  · exact (each "12612" "BEV001").2.2 4 (by decide +kernel)

end RegionalTables
