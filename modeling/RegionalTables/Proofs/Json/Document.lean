import RegionalTables.Proofs.Collections
import RegionalTables.Proofs.Json.Reading

/-! Documents read back. The tree of a value gives a value again if it is not too deep, and the same
value if it is canonical; so no two documents have the same text. -/
namespace RegionalTables.Json

open RegionalTables.Json.Tree

namespace Tree

theorem depth_array_le {items : List Value} {n : Nat}
    (each : ∀ v ∈ items, (ofValue v).depth ≤ n) : (ofValue (.array items)).depth ≤ n + 1 := by
  apply Nat.succ_le_succ
  induction items with
  | nil => exact Nat.zero_le n
  | cons v items ih =>
    obtain ⟨first, rest⟩ := List.forall_mem_cons.1 each
    exact Nat.max_le.2 ⟨first, ih rest⟩

theorem depth_object_le {members : List (String × Value)} {n : Nat}
    (each : ∀ m ∈ members, (ofValue m.2).depth ≤ n) : (ofValue (.object members)).depth ≤ n + 1 := by
  apply Nat.succ_le_succ
  induction members with
  | nil => exact Nat.zero_le n
  | cons m members ih =>
    obtain ⟨first, rest⟩ := List.forall_mem_cons.1 each
    exact Nat.max_le.2 ⟨first, ih rest⟩

theorem depth_lt_depth_object {members : List (String × Value)} {m : String × Value}
    (member : m ∈ members) : (ofValue m.2).depth < (ofValue (.object members)).depth := by
  apply Nat.lt_succ_of_le
  induction members with
  | nil => contradiction
  | cons first rest ih =>
    rcases List.mem_cons.1 member with rfl | member
    · exact Nat.le_max_left _ _
    · exact Nat.le_trans (ih member) (Nat.le_max_right _ _)

theorem depth_strings_le (l : List String) : (ofValue (Value.strings l)).depth ≤ 1 := by
  apply depth_array_le
  intro v member
  obtain ⟨s, _, rfl⟩ := List.mem_map.1 member
  exact Nat.le_refl 0

end Tree

namespace Value

theorem valid?_of_valid {n : Number} (valid : n.Valid) : n.valid? = some n := by
  cases n with
  | integer i => exact if_pos valid
  | float x => exact if_pos valid

theorem sortMembers_of_ascending {members : List (String × Value)}
    (ascending : members.Pairwise fun a b => compare a.1 b.1 = .lt) :
    sortMembers members = members :=
  congrArg SortedMap.entries (SortedMap.ofList_entries ⟨members, ascending⟩)

mutual

theorem writable_of_canonical {v : Value} (canonical : v.Canonical) : v.Writable := by
  match v with
  | .null | .bool _ | .string _ => exact trivial
  | .number n => exact canonical
  | .array items => exact writableItems_of_canonical canonical
  | .object members => exact writableMembers_of_canonical canonical.2

theorem writableItems_of_canonical {items : List Value} (canonical : CanonicalItems items) :
    WritableItems items := by
  match items with
  | [] => exact trivial
  | v :: rest =>
    exact ⟨writable_of_canonical canonical.1, writableItems_of_canonical canonical.2⟩

theorem writableMembers_of_canonical {members : List (String × Value)}
    (canonical : CanonicalMembers members) : WritableMembers members := by
  match members with
  | [] => exact trivial
  | (_, v) :: rest =>
    exact ⟨writable_of_canonical canonical.1, writableMembers_of_canonical canonical.2⟩

end

mutual

/-- A writable value that is not too deep is read from its tree, if canonical as it is. -/
theorem ofTree?_ofValue {v : Value} (writable : v.Writable) {depth : Nat}
    (fits : (Tree.ofValue v).depth ≤ depth) :
    ∃ w, ofTree? depth (Tree.ofValue v) = some w ∧ (v.Canonical → w = v) := by
  match v with
  | .null => exact ⟨.null, rfl, fun _ => rfl⟩
  | .bool b => exact ⟨.bool b, rfl, fun _ => rfl⟩
  | .string s => exact ⟨.string s, rfl, fun _ => rfl⟩
  | .number n =>
    refine ⟨.number n, ?_, fun _ => rfl⟩
    simp only [Tree.ofValue, ofTree?, Option.bind_some]
    rw [valid?_of_valid writable]
    rfl
  | .array items =>
    cases depth with
    | zero => contradiction
    | succ depth =>
      have inside : Tree.itemsDepth (Tree.ofItems items) ≤ depth := Nat.le_of_succ_le_succ fits
      obtain ⟨l, read, same⟩ := ofItems?_ofItems writable inside
      refine ⟨.array l, ?_, fun canonical => by rw [same canonical]⟩
      simp only [Tree.ofValue, ofTree?]
      rw [read]
      rfl
  | .object members =>
    cases depth with
    | zero => contradiction
    | succ depth =>
      have inside : Tree.membersDepth (Tree.ofMembers members) ≤ depth :=
        Nat.le_of_succ_le_succ fits
      obtain ⟨l, read, same⟩ := ofMembers?_ofMembers writable inside
      refine ⟨.object (sortMembers l), ?_, fun canonical => ?_⟩
      · simp only [Tree.ofValue, ofTree?]
        rw [read]
        rfl
      · rw [same canonical.2, sortMembers_of_ascending canonical.1]

theorem ofItems?_ofItems {items : List Value} (writable : WritableItems items) {depth : Nat}
    (fits : Tree.itemsDepth (Tree.ofItems items) ≤ depth) :
    ∃ l, ofItems? depth (Tree.ofItems items) = some l ∧ (CanonicalItems items → l = items) := by
  match items with
  | [] => exact ⟨[], rfl, fun _ => rfl⟩
  | v :: rest =>
    have first : (Tree.ofValue v).depth ≤ depth := Nat.le_trans (Nat.le_max_left _ _) fits
    have others : Tree.itemsDepth (Tree.ofItems rest) ≤ depth :=
      Nat.le_trans (Nat.le_max_right _ _) fits
    obtain ⟨w, readValue, sameValue⟩ := ofTree?_ofValue writable.1 first
    obtain ⟨l, readItems, sameItems⟩ := ofItems?_ofItems writable.2 others
    refine ⟨w :: l, ?_, fun canonical => by rw [sameValue canonical.1, sameItems canonical.2]⟩
    simp only [Tree.ofItems, ofItems?]
    rw [readValue, readItems]

theorem ofMembers?_ofMembers {members : List (String × Value)}
    (writable : WritableMembers members) {depth : Nat}
    (fits : Tree.membersDepth (Tree.ofMembers members) ≤ depth) :
    ∃ l, ofMembers? depth (Tree.ofMembers members) = some l ∧
      (CanonicalMembers members → l = members) := by
  match members with
  | [] => exact ⟨[], rfl, fun _ => rfl⟩
  | (k, v) :: rest =>
    have first : (Tree.ofValue v).depth ≤ depth := Nat.le_trans (Nat.le_max_left _ _) fits
    have others : Tree.membersDepth (Tree.ofMembers rest) ≤ depth :=
      Nat.le_trans (Nat.le_max_right _ _) fits
    obtain ⟨w, readValue, sameValue⟩ := ofTree?_ofValue writable.1 first
    obtain ⟨l, readMembers, sameMembers⟩ := ofMembers?_ofMembers writable.2 others
    refine ⟨(k, w) :: l, ?_, fun canonical => by
      rw [sameValue canonical.1, sameMembers canonical.2]⟩
    simp only [Tree.ofMembers, ofMembers?]
    rw [readValue, readMembers]

end

mutual

/-- Nothing is read beyond the depth allowed. -/
theorem depth_le_of_ofTree? {depth : Nat} {t : Tree} {v : Value}
    (read : ofTree? depth t = some v) : t.depth ≤ depth := by
  match t with
  | .null | .bool _ | .number _ | .string _ => exact Nat.zero_le depth
  | .array items =>
    cases depth with
    | zero => contradiction
    | succ depth =>
      obtain ⟨_, inside, _⟩ := Option.map_eq_some_iff.1 read
      exact Nat.succ_le_succ (itemsDepth_le_of_ofItems? inside)
  | .object members =>
    cases depth with
    | zero => contradiction
    | succ depth =>
      obtain ⟨_, inside, _⟩ := Option.map_eq_some_iff.1 read
      exact Nat.succ_le_succ (membersDepth_le_of_ofMembers? inside)

theorem itemsDepth_le_of_ofItems? {depth : Nat} {items : List Tree} {l : List Value}
    (read : ofItems? depth items = some l) : Tree.itemsDepth items ≤ depth := by
  match items with
  | [] => exact Nat.zero_le depth
  | t :: rest =>
    simp only [ofItems?] at read
    split at read
    · next first others =>
      exact Nat.max_le.2
        ⟨depth_le_of_ofTree? first, itemsDepth_le_of_ofItems? others⟩
    · contradiction

theorem membersDepth_le_of_ofMembers? {depth : Nat} {members : List (Option String × Tree)}
    {l : List (String × Value)} (read : ofMembers? depth members = some l) :
    Tree.membersDepth members ≤ depth := by
  match members with
  | [] => exact Nat.zero_le depth
  | (key, t) :: rest =>
    simp only [ofMembers?] at read
    split at read
    · next _ first others =>
      exact Nat.max_le.2
        ⟨depth_le_of_ofTree? first, membersDepth_le_of_ofMembers? others⟩
    · contradiction

end

/-- Canonical values with the same text are the same. -/
theorem chars_injective {v w : Value} (left : v.Canonical) (right : w.Canonical)
    (same : v.chars = w.chars) : v = w := by
  have tree : Tree.ofValue v = Tree.ofValue w := by
    have read := read?_chars (writable_of_canonical left)
    rw [same, read?_chars (writable_of_canonical right)] at read
    exact (Option.some.inj read).symm
  obtain ⟨a, readV, sameV⟩ := ofTree?_ofValue (writable_of_canonical left) (Nat.le_refl _)
  obtain ⟨b, readW, sameW⟩ := ofTree?_ofValue (writable_of_canonical right) (Nat.le_refl _)
  rw [tree, readW] at readV
  rw [← sameV left, ← sameW right]
  exact (Option.some.inj readV).symm

end Value

namespace Document

theorem ext_value {d e : Document} (same : d.value = e.value) : d = e := by
  cases d
  cases e
  cases same
  rfl

theorem chars_injective {d e : Document} (same : d.value.chars = e.value.chars) : d = e :=
  ext_value (Value.chars_injective d.canonical e.canonical same)

/-- A document that is not too deep is read from its tree. -/
theorem ofTree?_ofValue (d : Document) {depth : Nat} (fits : (Tree.ofValue d.value).depth ≤ depth) :
    ofTree? depth (Tree.ofValue d.value) = some d := by
  obtain ⟨w, read, same⟩ := Value.ofTree?_ofValue (Value.writable_of_canonical d.canonical) fits
  rw [same d.canonical] at read
  unfold ofTree?
  split
  · next v found =>
    rw [read] at found
    exact congrArg some (ext_value (Option.some.inj found).symm)
  · next none =>
    rw [read] at none
    contradiction

/-- A document that is not too deep is read from its text. -/
theorem read?_chars {d : Document} (fits : (Tree.ofValue d.value).depth ≤ depthLimit) :
    read? d.value.chars = some d := by
  rw [read?, RegionalTables.Json.read?_chars (Value.writable_of_canonical d.canonical)]
  exact d.ofTree?_ofValue fits

theorem members?_object (m : SortedMap String Document) : (object m).members? = some m := by
  refine congrArg some (SortedMap.ext ?_)
  have same : m.entries.pmap (fun e canonical => (e.1, ⟨e.2.value, canonical⟩))
      (fun e _ => e.2.canonical) = m.entries.map id := List.pmap_eq_map (f := id) _
  simpa [List.pmap_map] using same

/-- Only an object has members, which make it up. -/
theorem members?_eq_some_iff {d : Document} {m : SortedMap String Document} :
    d.members? = some m ↔ d = object m := by
  constructor
  · intro members
    rcases d with ⟨v, canonical⟩
    cases v with
    | object entries =>
      obtain rfl := Option.some.inj members
      refine ext_value (congrArg Value.object ?_)
      simp [List.map_pmap]
    | _ => contradiction
  · rintro rfl
    exact members?_object m

theorem string_injective {s t : String} (same : string s = string t) : s = t := by
  have value := congrArg Document.value same
  exact Value.string.inj value

theorem byte_injective {m n : UInt8} (same : byte m = byte n) : m = n := by
  have value := congrArg Document.value same
  simp only [byte, Value.integer, Value.number.injEq, Number.integer.injEq] at value
  exact UInt8.toNat_inj.1 (by omega)

theorem array_injective {items items' : List Document} (same : array items = array items') :
    items = items' := by
  have values := Value.array.inj (congrArg Document.value same)
  exact (List.map_inj_right fun _ _ => ext_value).1 values

theorem strings_injective {l l' : List String} (same : strings l = strings l') : l = l' :=
  (List.map_inj_right fun _ _ => string_injective).1 (array_injective same)

theorem object_injective {m n : SortedMap String Document} (same : object m = object n) : m = n := by
  have values := Value.object.inj (congrArg Document.value same)
  apply SortedMap.ext
  refine (List.map_inj_right ?_).1 values
  intro e e' member
  exact Prod.ext (Prod.mk.inj member).1 (ext_value (Prod.mk.inj member).2)

theorem depth_object_le {m : SortedMap String Document} {n : Nat}
    (each : ∀ e ∈ m.entries, (Tree.ofValue e.2.value).depth ≤ n) :
    (Tree.ofValue (object m).value).depth ≤ n + 1 := by
  apply Tree.depth_object_le
  intro member mem
  obtain ⟨e, own, rfl⟩ := List.mem_map.1 mem
  exact each e own

theorem depth_array_le {items : List Document} {n : Nat}
    (each : ∀ d ∈ items, (Tree.ofValue d.value).depth ≤ n) :
    (Tree.ofValue (array items).value).depth ≤ n + 1 := by
  apply Tree.depth_array_le
  intro v mem
  obtain ⟨d, own, rfl⟩ := List.mem_map.1 mem
  exact each d own

theorem depth_strings_le (l : List String) : (Tree.ofValue (strings l).value).depth ≤ 1 := by
  apply depth_array_le
  intro d mem
  obtain ⟨s, _, rfl⟩ := List.mem_map.1 mem
  exact Nat.le_refl 0

end Document

end RegionalTables.Json
