import RegionalTables.Proofs.Query.Definition

/-! When keys are equal. Queries have one definition exactly if they agree in all but their source,
and one data definition exactly if they ask for the same data; a definition is never a data
definition. Beyond that, keys are equal only where two texts share a digest. -/
namespace RegionalTables

open Json

/-- Two different texts with the same digest. -/
def Sha256.Collide (s t : String) : Prop :=
  s ≠ t ∧ digest (Text.Utf8.encode s.toList) = digest (Text.Utf8.encode t.toList)

namespace Query

/-- The queries agree in the fields that decide the observations. -/
structure SameData (q r : Query) : Prop where
  data : q.data = r.data
  timeField : q.timeField = r.timeField
  level : q.level = r.level
  parent : q.parent = r.parent
  region : q.region = r.region
  time : q.time = r.time

/-- The queries agree in every field but the source. -/
structure SameAnswer (q r : Query) : Prop extends q.SameData r where
  delimiter : q.delimiter = r.delimiter
  format : q.format = r.format
  labels : q.labels = r.labels
  layout : q.layout = r.layout
  sort : q.sort = r.sort

variable {q r : Query}

theorem definition_eq_iff : q.definition = r.definition ↔ q.SameAnswer r := by
  constructor
  · intro same
    rw [← eq_of_definition same]
    exact ⟨⟨rfl, rfl, rfl, rfl, rfl, rfl⟩, rfl, rfl, rfl, rfl, rfl⟩
  · rintro ⟨⟨data, timeField, level, parent, region, time⟩, delimiter, format, labels, layout, sort⟩
    simp only [definition, parentDocument, data, timeField, level, parent, region, time, delimiter,
      format, labels, layout, sort]

theorem dataDefinition_eq_iff : q.dataDefinition = r.dataDefinition ↔ q.SameData r := by
  constructor
  · intro same
    rw [← eq_of_dataDefinition same]
    exact ⟨rfl, rfl, rfl, rfl, rfl, rfl⟩
  · rintro ⟨data, timeField, level, parent, region, time⟩
    simp only [dataDefinition, parentDocument, data, timeField, level, parent, region, time]

theorem dataDefinition_of_definition (same : q.definition = r.definition) :
    q.dataDefinition = r.dataDefinition :=
  dataDefinition_eq_iff.2 (definition_eq_iff.1 same).toSameData

/-- A definition has more members than any data definition. -/
theorem definition_ne_dataDefinition (q r : Query) : q.definition ≠ r.dataDefinition := by
  intro same
  have members : 11 = 6 := congrArg SortedMap.size (Document.object_injective same)
  contradiction

theorem text_eq_iff {d e : Document} : d.text = e.text ↔ d = e := by
  constructor
  · intro same
    exact Document.chars_injective (String.ofList_inj.1 same)
  · rintro rfl
    rfl

theorem keyOf_eq_iff {d e : Document} :
    keyOf d = keyOf e ↔ d = e ∨ Sha256.Collide d.text e.text := by
  have digests : keyOf d = keyOf e ↔
      Sha256.digest (Text.Utf8.encode d.text.toList) =
        Sha256.digest (Text.Utf8.encode e.text.toList) := by
    simp only [keyOf, Document.text, Value.text, String.toList_ofList]
    exact ⟨Sha256.hex_injective, congrArg Sha256.hex⟩
  rw [digests, ← text_eq_iff]
  by_cases same : d.text = e.text
  · simp [same]
  · simp [same, Sha256.Collide]

/-- The texts that keys are digests of are equal exactly for queries that agree, and keys are equal
exactly for these, unless texts collide. -/
theorem keys_eq_iff_agree_or_collide (q r : Query) :
    (q.definition.text = r.definition.text ↔ q.SameAnswer r) ∧
      (q.dataDefinition.text = r.dataDefinition.text ↔ q.SameData r) ∧
      q.definition.text ≠ r.dataDefinition.text ∧
      (q.renderKey = r.renderKey ↔
        q.SameAnswer r ∨ Sha256.Collide q.definition.text r.definition.text) ∧
      (q.dataKey = r.dataKey ↔
        q.SameData r ∨ Sha256.Collide q.dataDefinition.text r.dataDefinition.text) ∧
      (q.renderKey = r.dataKey ↔ Sha256.Collide q.definition.text r.dataDefinition.text) := by
  have apart := definition_ne_dataDefinition q r
  refine ⟨?_, ?_, ?_, ?_, ?_, ?_⟩
  · rw [text_eq_iff, definition_eq_iff]
  · rw [text_eq_iff, dataDefinition_eq_iff]
  · rwa [ne_eq, text_eq_iff]
  · rw [renderKey, renderKey, keyOf_eq_iff, definition_eq_iff]
  · rw [dataKey, dataKey, keyOf_eq_iff, dataDefinition_eq_iff]
  · rw [renderKey, dataKey, keyOf_eq_iff, or_iff_right apart]

end Query

end RegionalTables
