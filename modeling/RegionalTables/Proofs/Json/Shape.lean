import RegionalTables.Json.Shape
import RegionalTables.Proofs.Collections

/-! Lists and maps read back from the trees of their values, one level of depth for each. -/
namespace RegionalTables.Json.Shape

open RegionalTables.Json.Tree

theorem mapM_ofItems {read : Tree → Option α} {write : α → Value} {l : List α}
    (each : ∀ a ∈ l, read (ofValue (write a)) = some a) :
    (ofItems (l.map write)).mapM read = some l := by
  induction l with
  | nil => rfl
  | cons a l ih =>
    obtain ⟨first, rest⟩ := List.forall_mem_cons.1 each
    rw [List.map_cons, ofItems, List.mapM_cons, first, ih rest]
    rfl

theorem list?_ofValue {read : Nat → Tree → Option α} {write : α → Value} {depth : Nat} {l : List α}
    (each : ∀ a ∈ l, read depth (ofValue (write a)) = some a) :
    list? read (depth + 1) (ofValue (.array (l.map write))) = some l :=
  mapM_ofItems each

theorem strings?_ofValue (depth : Nat) (l : List String) :
    strings? (depth + 1) (ofValue (Value.strings l)) = some l :=
  list?_ofValue fun _ _ => rfl

theorem mapM_ofMembers {read : Tree → Option α} {write : α → Value} {l : List (String × α)}
    (each : ∀ e ∈ l, read (ofValue (write e.2)) = some e.2) :
    (ofMembers (l.map fun e => (e.1, write e.2))).mapM (member? read) = some l := by
  induction l with
  | nil => rfl
  | cons e l ih =>
    obtain ⟨first, rest⟩ := List.forall_mem_cons.1 each
    have member : member? read (some e.1, ofValue (write e.2)) = some e := by
      simp [member?, first]
    rw [List.map_cons, ofMembers, List.mapM_cons, member, ih rest]
    rfl

theorem map?_ofValue {read : Nat → Tree → Option α} {write : α → Value} {depth : Nat}
    {m : SortedMap String α} (each : ∀ e ∈ m.entries, read depth (ofValue (write e.2)) = some e.2) :
    map? read (depth + 1) (ofValue (.object (m.entries.map fun e => (e.1, write e.2)))) = some m := by
  have read := mapM_ofMembers each
  simp only [ofValue, map?]
  rw [read, Option.map_some, SortedMap.ofList_entries]

end RegionalTables.Json.Shape
