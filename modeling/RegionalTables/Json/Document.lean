import RegionalTables.Json.Tree

/-! Canonical values and how they arise from text. A repeated key keeps its last value, and a part
that denotes nothing or lies too deep makes the whole unreadable. -/
namespace RegionalTables.Json

structure Document where
  value : Value
  canonical : value.Canonical

/-- At most this many arrays and objects are read inside one another. -/
def depthLimit : Nat := 127

def Number.valid? (n : Number) : Option Number :=
  match n with
  | .integer i => if -0x8000000000000000 ≤ i ∧ i < 0x10000000000000000 then some n else none
  | .float x => if x.isFinite then some n else none

namespace Value

def sortMembers (members : List (String × Value)) : List (String × Value) :=
  (SortedMap.ofList members).entries

mutual

/-- The value of a tree with at most `depth` arrays and objects inside one another. -/
def ofTree? (depth : Nat) : Tree → Option Value
  | .null => some .null
  | .bool b => some (.bool b)
  | .number n => (n.bind Number.valid?).map .number
  | .string s => s.map .string
  | .array items =>
    match depth with
    | 0 => none
    | depth + 1 => (ofItems? depth items).map .array
  | .object members =>
    match depth with
    | 0 => none
    | depth + 1 => (ofMembers? depth members).map fun l => .object (sortMembers l)

def ofItems? (depth : Nat) : List Tree → Option (List Value)
  | [] => some []
  | t :: rest =>
    match ofTree? depth t, ofItems? depth rest with
    | some v, some l => some (v :: l)
    | _, _ => none

def ofMembers? (depth : Nat) : List (Option String × Tree) → Option (List (String × Value))
  | [] => some []
  | (key, t) :: rest =>
    match key, ofTree? depth t, ofMembers? depth rest with
    | some k, some v, some l => some ((k, v) :: l)
    | _, _, _ => none

end

theorem mem_ofList {members : List (String × Value)} {m : String × Value}
    (h : m ∈ (SortedMap.ofList members).entries) : m ∈ members := by
  suffices ∀ (l : List (String × Value)) (acc : SortedMap String Value),
      m ∈ (l.foldl (fun m e => m.insert e.1 e.2) acc).entries → m ∈ l ∨ m ∈ acc.entries by
    rcases this members .empty h with h | h
    · exact h
    · simp [SortedMap.empty] at h
  intro l
  induction l with
  | nil => intro acc h; exact .inr h
  | cons e rest ih =>
    intro acc h
    rcases ih _ h with h | h
    · exact .inl (.tail _ h)
    · rw [← SortedMap.find?_eq_some_iff, SortedMap.find?_insert] at h
      split at h
      · rename_i same
        simp only [Option.some.injEq] at h
        exact .inl (List.mem_cons.2 (.inl (Prod.ext same h.symm)))
      · exact .inr (SortedMap.find?_eq_some_iff.1 h)

theorem valid_of_valid? {n m : Number} (h : n.valid? = some m) : m.Valid := by
  cases n <;> simp only [Number.valid?, Option.ite_none_right_eq_some, Option.some.injEq] at h <;>
    obtain ⟨ok, rfl⟩ := h <;> exact ok

mutual

theorem canonical_of_ofTree? {depth : Nat} {t : Tree} {v : Value} (h : ofTree? depth t = some v) :
    v.Canonical := by
  match t with
  | .null | .bool _ => simp only [ofTree?, Option.some.injEq] at h; subst h; simp [Canonical]
  | .number n =>
    simp only [ofTree?, Option.map_eq_some_iff, Option.bind_eq_some_iff] at h
    obtain ⟨m, ⟨_, _, valid⟩, rfl⟩ := h
    simpa [Canonical] using valid_of_valid? valid
  | .string s =>
    simp only [ofTree?, Option.map_eq_some_iff] at h
    obtain ⟨_, _, rfl⟩ := h; simp [Canonical]
  | .array items =>
    cases depth with
    | zero => simp [ofTree?] at h
    | succ depth =>
      simp only [ofTree?, Option.map_eq_some_iff] at h
      obtain ⟨l, hl, rfl⟩ := h
      exact canonical_array_iff.2 (canonical_of_ofItems? hl)
  | .object members =>
    cases depth with
    | zero => simp [ofTree?] at h
    | succ depth =>
      simp only [ofTree?, Option.map_eq_some_iff] at h
      obtain ⟨l, hl, rfl⟩ := h
      exact canonical_object_iff.2 ⟨(SortedMap.ofList l).ascending,
        fun m hm => canonical_of_ofMembers? hl m (mem_ofList hm)⟩

theorem canonical_of_ofItems? {depth : Nat} {items : List Tree} {l : List Value}
    (h : ofItems? depth items = some l) : ∀ v ∈ l, v.Canonical := by
  match items with
  | [] => simp only [ofItems?, Option.some.injEq] at h; subst h; simp
  | t :: rest =>
    simp only [ofItems?] at h
    split at h
    case h_1 v vs hv hvs =>
      simp only [Option.some.injEq] at h
      subst h
      intro w hw
      rcases List.mem_cons.1 hw with rfl | hw
      · exact canonical_of_ofTree? hv
      · exact canonical_of_ofItems? hvs w hw
    case h_2 => simp at h

theorem canonical_of_ofMembers? {depth : Nat} {members : List (Option String × Tree)}
    {l : List (String × Value)} (h : ofMembers? depth members = some l) :
    ∀ m ∈ l, m.2.Canonical := by
  match members with
  | [] => simp only [ofMembers?, Option.some.injEq] at h; subst h; simp
  | (key, t) :: rest =>
    simp only [ofMembers?] at h
    split at h
    case h_1 k v vs _ hv hvs =>
      simp only [Option.some.injEq] at h
      subst h
      intro w hw
      rcases List.mem_cons.1 hw with rfl | hw
      · exact canonical_of_ofTree? hv
      · exact canonical_of_ofMembers? hvs w hw
    case h_2 => simp at h

end

end Value

namespace Document

def ofTree? (depth : Nat) (t : Tree) : Option Document :=
  match h : Value.ofTree? depth t with
  | some v => some ⟨v, Value.canonical_of_ofTree? h⟩
  | none => none

/-- Reads one document that fills the whole text. -/
def read? (cs : List Char) : Option Document := (Tree.read? cs).bind (ofTree? depthLimit)

def null : Document := ⟨.null, by simp [Value.Canonical]⟩

instance : Inhabited Document := ⟨null⟩

def string (s : String) : Document := ⟨.string s, by simp [Value.Canonical]⟩

def byte (n : UInt8) : Document :=
  ⟨.integer n.toNat, by
    have := n.toNat_lt
    simp only [Value.integer, Value.Canonical, Number.Valid]; omega⟩

def array (items : List Document) : Document where
  value := .array (items.map (·.value))
  canonical := Value.canonical_array_iff.2 fun v hv => by
    obtain ⟨d, _, rfl⟩ := List.mem_map.1 hv
    exact d.canonical

def object (members : SortedMap String Document) : Document where
  value := .object (members.entries.map fun m => (m.1, m.2.value))
  canonical := Value.canonical_object_iff.2 ⟨by
    simpa [List.pairwise_map] using members.ascending, fun m hm => by
    obtain ⟨e, _, rfl⟩ := List.mem_map.1 hm
    exact e.2.canonical⟩

/-- An object written with its members in any order. -/
def ofMembers (members : List (String × Document)) : Document := object (.ofList members)

def strings (l : List String) : Document := array (l.map string)

/-- The items of an array, each a document. -/
def items? (d : Document) : Option (List Document) :=
  match d with
  | ⟨.array items, h⟩ => some (items.attach.map fun v => ⟨v.1, Value.canonical_array_iff.1 h v.1 v.2⟩)
  | _ => none

/-- The members of an object, each a document. -/
def members? (d : Document) : Option (SortedMap String Document) :=
  match d with
  | ⟨.object members, h⟩ =>
    some {
      entries := members.pmap (fun m ok => (m.1, ⟨m.2, ok⟩)) (Value.canonical_object_iff.1 h).2
      ascending := (List.pairwise_pmap _).2
        ((Value.canonical_object_iff.1 h).1.imp fun order _ _ => order) }
  | _ => none

end Document

end RegionalTables.Json
