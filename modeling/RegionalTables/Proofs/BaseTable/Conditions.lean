import RegionalTables.Proofs.BaseTable.ClosedWorld
import RegionalTables.Proofs.Binary64.Whole
import RegionalTables.Proofs.Json.Digits

/-! The rows of a base table and the conditions of its query. The filter puts the conditions to the
facts, and the rows are read from the facts in a way of their own; what holds of a fact that passed
holds of the texts in its rows. -/
namespace RegionalTables

/-- Read as a number, the value lies within the bounds. A missing bound is open. -/
def Json.Value.Within (v : Json.Value) (low high : Option UInt16) : Prop :=
  ∃ x, v.number? = some x ∧ (∀ y, low = some y → (Binary64.ofInt y.toNat).atMost x = true) ∧
    ∀ y, high = some y → x.atMost (Binary64.ofInt y.toNat) = true

/-- Digits within bounds write a whole number within them. -/
theorem Json.Value.Within.decimal {v : Json.Value} {low high : Option UInt16} {text : String}
    {length : Nat} (within : v.Within low high) (shown : v.scalarText? = some text)
    (nonempty : 0 < length) (digits : Text.Digits length text) (small : Text.decimal text < 2 ^ 53) :
    (∀ y, low = some y → y.toNat ≤ Text.decimal text) ∧
      ∀ y, high = some y → Text.decimal text ≤ y.toNat := by
  obtain ⟨x, number, above, below⟩ := within
  have whole := Json.Value.number?_of_digits shown nonempty digits
  obtain rfl := Option.some.inj (whole.symm.trans number)
  have year : ∀ y : UInt16, y.toNat < 2 ^ 53 := fun y => by have := y.toNat_lt; omega
  constructor
  · intro y bound
    exact (Binary64.atMost_ofInt (year y) small).1 (above y bound)
  · intro y bound
    exact (Binary64.atMost_ofInt small (year y)).1 (below y bound)

/-- The row made from a fact keeps to the conditions of the query. Times are told by the year, so
they are seen in rows that show the year. -/
structure Observation.Meets (o : Observation) (q : Query) (f : Fact) : Prop where
  selected : (q.data.measure? o.statistic o.measure).isSome = true
  region : ∀ ids, q.region = .ids ids → o.region ∈ ids
  parent : ∀ start, q.parent = some start → start.toList <+: o.region.toList
  year : q.timeField = .year → ∀ y, q.time = .year y → o.time = toString y.toNat
  range : q.timeField = .year → ∀ low high, q.time = .range low high →
    ∃ v, f.get? "year" = some v ∧ v.scalarText? = some o.time ∧ v.Within low high
  /-- Of years written in digits the range is one of whole numbers. -/
  digits : q.timeField = .year → ∀ low high, q.time = .range low high →
    ∀ length, 0 < length → Text.Digits length o.time → Text.decimal o.time < 2 ^ 53 →
      (∀ y, low = some y → y.toNat ≤ Text.decimal o.time) ∧
        ∀ y, high = some y → Text.decimal o.time ≤ y.toNat

namespace BaseTable

section

variable {time : TimeField} {statistic measure text : String} {m : Measure} {f : Fact}
  {o : Observation} (made : observation? time statistic measure m f = some o)

include made

/-- The region the filter finds stands in the row. -/
theorem region_eq (found : f.fieldText? "region_id" = some text) : o.region = text := by
  rw [Fact.fieldText?_of_dotless f (by decide)] at found
  rw [(texts_of_observation? made).1, found]
  rfl

/-- So does the year, where years are shown. -/
theorem time_eq (shown : time = .year) (found : f.text? "year" = some text) : o.time = text := by
  rw [(texts_of_observation? made).2, shown, TimeField.name, found]
  rfl

end

variable {q : Query} {m : Measure} {f : Fact} {o : Observation}

/-- What is compared as a number has a text, and this text is shown. -/
theorem within_of_holds (made : observation? q.timeField o.statistic o.measure m f = some o)
    (shown : q.timeField = .year) {low high : Option UInt16} (time : q.time = .range low high)
    (holds : q.time.Holds f) :
    ∃ v, f.get? "year" = some v ∧ v.scalarText? = some o.time ∧ v.Within low high := by
  rw [time] at holds
  obtain ⟨x, number, above, below⟩ := holds
  rw [Fact.fieldNumber?, Fact.field?_of_dotless f (by decide)] at number
  obtain ⟨v, held, number⟩ := Option.bind_eq_some_iff.1 number
  obtain ⟨text, scalar⟩ : ∃ text, v.scalarText? = some text := by
    cases v with
    | number n => exact ⟨_, rfl⟩
    | string s => exact ⟨_, rfl⟩
    | null | bool | array | object => contradiction
  have found : f.text? "year" = some text := by rw [Fact.text?, held, Option.bind_some, scalar]
  rw [time_eq made shown found]
  exact ⟨v, held, scalar, x, number, above, below⟩

theorem meets_of_admits (selected : (q.data.measure? o.statistic o.measure).isSome = true)
    (made : observation? q.timeField o.statistic o.measure m f = some o) (admitted : q.Admits f) :
    o.Meets q f where
  selected := selected
  region ids choice := by
    obtain ⟨id, listed, found⟩ := admitted.region ids choice
    rw [region_eq made found]
    exact listed
  parent start choice := by
    obtain ⟨id, found, below⟩ := admitted.parent start choice
    rw [region_eq made found]
    exact below
  year shown y time := by
    have found := admitted.time
    rw [time, TimeChoice.Holds, Fact.fieldText?_of_dotless f (by decide)] at found
    exact time_eq made shown found
  range shown low high time := within_of_holds made shown time admitted.time
  digits shown low high time length nonempty digits small := by
    obtain ⟨v, _, scalar, within⟩ := within_of_holds made shown time admitted.time
    exact within.decimal scalar nonempty digits small

end BaseTable

/-- Every row is made from a stored fact that the query admits, and keeps to the query's conditions
itself. -/
theorem Service.rows_meet_conditions {s : Service} {facts : List Fact} {text : String} {q : Query}
    (held : s.store.source = .memory facts) (read : Query.read text = .ok q) :
    ∃ t, s.baseTable q = .ok t ∧ ∀ o ∈ t.observations, ∃ m, ∃ f ∈ facts,
      (s.view q).measure? o.statistic o.measure = some m ∧ o.MadeFrom q.timeField f m ∧
        q.Admits f ∧ o.Meets q f := by
  refine ⟨_, baseTable_of_memory held q, fun o member => ?_⟩
  obtain ⟨m, viewed, f, passed, kind, made⟩ := BaseTable.exists_fact_of_mem member
  obtain ⟨stored, accepted⟩ := List.mem_filter.1 passed
  obtain ⟨admitted, _⟩ := (Filter.accepts_ofQuery (Query.substantial_of_read read)).1 accepted
  obtain ⟨_, b, _, selected, _⟩ := measure?_view viewed
  have named : (q.data.measure? o.statistic o.measure).isSome = true := by rw [selected]; rfl
  exact ⟨m, f, stored, viewed, ⟨kind, made⟩, admitted,
    BaseTable.meets_of_admits named made admitted⟩

theorem Service.rows_of_women_until_2010 :
    Query.read Sample.text = .ok Sample.query ∧
      ∃ t, Sample.service.baseTable Sample.query = .ok t ∧ t.observations.length = 2 ∧
        ∀ o ∈ t.observations, o.region ∈ SortedSet.ofList ["05111", "11"] ∧
          "05".toList <+: o.region.toList ∧ Text.decimal o.time ≤ 2010 := by
  have read : Query.read Sample.text = .ok Sample.query := by decide +kernel
  obtain ⟨t, made, rows⟩ := rows_meet_conditions (s := Sample.service) rfl read
  have all : Sample.service.baseTable Sample.query = .ok ⟨.replicate 2
      ⟨"05111", "2005", "12411", "BEVSTD", .integer 4, .ofList [("GES", "GESW")]⟩, []⟩ := by
    decide +kernel
  obtain rfl := Except.ok.inj (all.symm.trans made)
  refine ⟨read, _, made, rfl, fun o member => ?_⟩
  obtain ⟨_, _, _, _, _, _, meets⟩ := rows o member
  obtain rfl := (List.mem_replicate.1 member).2
  obtain ⟨_, below⟩ := meets.digits rfl _ _ rfl 4 (by decide) (by decide) (by decide)
  exact ⟨meets.region _ rfl, meets.parent _ rfl, below _ rfl⟩

end RegionalTables
