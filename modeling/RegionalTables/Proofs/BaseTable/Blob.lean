import RegionalTables.BaseTable.Blob
import RegionalTables.Proofs.Base64
import RegionalTables.Proofs.BaseTable.Rows
import RegionalTables.Proofs.Cell.Written
import RegionalTables.Proofs.Json.Document
import RegionalTables.Proofs.Json.Shape
import RegionalTables.Proofs.Text.Utf8

/-! Base tables read back from their blobs. Only a cell that is not finite is lost, and facts hold
none, so a table made from facts is the same table afterwards, down to the kind of every number. -/
namespace RegionalTables

open Json Json.Tree Json.Shape

namespace Fact

theorem finite_unwrap {v : Value} (canonical : v.Canonical) : (unwrap v).Finite := by
  cases v with
  | object members =>
    rw [unwrap]
    cases found : SortedMap.findEntries "value" members with
    | none => exact trivial
    | some w =>
      obtain ⟨_, each⟩ := Value.canonical_object_iff.1 canonical
      exact Cell.finite_ofValue (each _ (SortedMap.mem_of_findEntries found))
  | number n => exact Cell.finite_ofNumber canonical
  | _ => exact trivial

theorem finite_measured (f : Fact) (measure : String) : (f.measured measure).Finite := by
  rw [measured, get?]
  cases f.find? measure with
  | none => exact trivial
  | some d => exact finite_unwrap d.canonical

end Fact

namespace Observation

theorem writable_toValue {o : Observation} (finite : o.value.Finite) : o.toValue.Writable := by
  have dimensions : Value.Writable (.object (o.dimensions.entries.map fun e => (e.1, .string e.2))) := by
    rw [Value.writable_object_iff]
    intro m member
    obtain ⟨e, _, rfl⟩ := List.mem_map.1 member
    exact trivial
  exact ⟨trivial, trivial, trivial, trivial, Cell.writable_value finite, dimensions, trivial⟩

theorem ofTree?_toValue (depth : Nat) (o : Observation) :
    Observation.ofTree? (depth + 2) (ofValue o.toValue) = some o := by
  have slots : slots? [["region_id"], ["time"], ["statistic"], ["measure"], ["value"], ["dimensions"]]
      (ofValue o.toValue) = some ⟨false, [some (ofValue (.string o.region)),
        some (ofValue (.string o.time)), some (ofValue (.string o.statistic)),
        some (ofValue (.string o.measure)), some (ofValue o.value.value),
        some (ofValue (.object (o.dimensions.entries.map fun e => (e.1, .string e.2))))]⟩ := rfl
  have dimensions : map? (fun _ => string?) (depth + 1)
      (ofValue (.object (o.dimensions.entries.map fun e => (e.1, .string e.2)))) =
        some o.dimensions := map?_ofValue fun _ _ => rfl
  rw [Observation.ofTree?, record?, slots, Option.bind_some]
  simp only [Slots.required, Slots.defaulted, Slots.part, List.getElem?_cons_succ,
    List.getElem?_cons_zero, Option.join_some, Option.bind_some, Cell.ofTree?_value]
  rw [dimensions]
  rfl

/-- The observation that the written form stands for. -/
def written (o : Observation) : Observation := { o with value := o.value.written }

theorem written_eq_iff {o : Observation} : o.written = o ↔ o.value.Finite := by
  rw [← Cell.written_eq_iff]
  constructor
  · exact congrArg value
  · intro same
    rw [written, same]

theorem chars_written (o : Observation) : o.written.toValue.chars = o.toValue.chars := by
  simp only [written, toValue, Value.chars, Value.membersTail, o.value.chars_written]

end Observation

namespace BaseTable

/-- All cells can be written as JSON numbers. -/
def Finite (t : BaseTable) : Prop := ∀ o ∈ t.observations, o.value.Finite

theorem writable_toValue {t : BaseTable} (finite : t.Finite) : t.toValue.Writable := by
  have rows : Value.Writable (.array (t.observations.map Observation.toValue)) := by
    rw [Value.writable_array_iff]
    intro v member
    obtain ⟨o, own, rfl⟩ := List.mem_map.1 member
    exact Observation.writable_toValue (finite o own)
  exact ⟨rows, Value.writable_strings t.cubes, trivial⟩

theorem ofTree?_toValue (depth : Nat) (t : BaseTable) :
    ofTree? (depth + 4) (ofValue t.toValue) = some t := by
  have slots : slots? [["rows"], ["cubes"]] (ofValue t.toValue) =
      some ⟨false, [some (ofValue (.array (t.observations.map Observation.toValue))),
        some (ofValue (Value.strings t.cubes))]⟩ := rfl
  have rows : list? Observation.ofTree? (depth + 3)
      (ofValue (.array (t.observations.map Observation.toValue))) = some t.observations :=
    list?_ofValue fun o _ => Observation.ofTree?_toValue depth o
  have cubes := strings?_ofValue (depth + 2) t.cubes
  rw [ofTree?, record?, slots, Option.bind_some]
  simp [Slots.required, Slots.part, rows, cubes]

/-- A table of finite cells is read back from its blob. -/
theorem ofBlob_blob {t : BaseTable} (finite : t.Finite) : ofBlob t.blob = .ok t := by
  have tree : ofBytes? (Text.Utf8.encode t.toValue.chars) = some (ofValue t.toValue) := by
    rw [ofBytes?, charsOf_encode, read?_chars (writable_toValue finite)]
  have table : ofTree? depthLimit (ofValue t.toValue) = some t := ofTree?_toValue 123 t
  simp only [ofBlob, blob, String.toList_ofList, Base64.decode?_encode]
  rw [tree, Option.bind_some, table]

theorem finite_observation? {time : TimeField} {statistic measure : String} {m : Measure} {f : Fact}
    {o : Observation} (made : observation? time statistic measure m f = some o) : o.value.Finite := by
  obtain ⟨_, rfl⟩ := observation?_eq_some_iff.1 made
  exact f.finite_measured measure

theorem finite_ofFacts (view : Catalog) (q : Query) (facts : List Fact) :
    (ofFacts view q facts).Finite := by
  intro o member
  obtain ⟨_, _, _, _, _, made⟩ := exists_fact_of_mem member
  exact finite_observation? made

/-- The table that the blob stands for. -/
def written (t : BaseTable) : BaseTable :=
  { t with observations := t.observations.map Observation.written }

theorem finite_written (t : BaseTable) : t.written.Finite := by
  intro o member
  obtain ⟨o, _, rfl⟩ := List.mem_map.1 member
  exact o.value.finite_written

theorem written_eq_iff {t : BaseTable} : t.written = t ↔ t.Finite := by
  have same : t.written = t ↔ t.observations.map Observation.written = t.observations.map id := by
    rw [List.map_id]
    exact ⟨congrArg observations, fun same => by rw [written, same]⟩
  rw [same, List.map_inj_left]
  exact forall₂_congr fun o _ => Observation.written_eq_iff

/-- Cells that are written alike make up one blob. -/
theorem blob_written (t : BaseTable) : t.written.blob = t.blob := by
  have rows := Value.chars_array_congr (l := t.observations) (g := Observation.toValue)
    (f := fun o => o.written.toValue) fun o _ => o.chars_written
  have chars : t.written.toValue.chars = t.toValue.chars := by
    simp only [written, toValue, List.map_map, Function.comp_def, Value.chars, Value.membersTail, rows]
  rw [blob, chars, blob]

/-- Every blob is read, as the table it stands for. This is the table itself exactly if all its
cells are finite, which they are in a table made from facts. -/
theorem exact_from_blob :
    (∀ t : BaseTable, ofBlob t.blob = .ok t.written) ∧
      (∀ t : BaseTable, ofBlob t.blob = .ok t ↔ t.Finite) ∧
      ∀ view q facts, (ofFacts view q facts).Finite := by
  have read (t : BaseTable) : ofBlob t.blob = .ok t.written := by
    rw [← blob_written]
    exact ofBlob_blob t.finite_written
  refine ⟨read, fun t => ?_, finite_ofFacts⟩
  rw [read, Except.ok.injEq, written_eq_iff]

end BaseTable

/-- The base table a service makes is read back from its blob. -/
theorem Service.ofBlob_blob {s : Service} {q : Query} {t : BaseTable} (made : s.baseTable q = .ok t) :
    BaseTable.ofBlob t.blob = .ok t := by
  obtain ⟨facts, _, table⟩ := bind_eq_ok_iff.1 made
  obtain rfl := Except.ok.inj table
  exact BaseTable.ofBlob_blob (BaseTable.finite_ofFacts _ _ _)

end RegionalTables
