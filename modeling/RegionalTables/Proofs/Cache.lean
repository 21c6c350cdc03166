import RegionalTables.Cache.Database
import RegionalTables.Proofs.Fact
import RegionalTables.Proofs.Json.Document
import RegionalTables.Proofs.Json.Shape

/-! What a cache gives back. A database reads entries from their texts and finds them as they were,
so it answers like a cache in memory; and scoped keys of different indexes never meet. -/
namespace RegionalTables

open Json Json.Tree Json.Shape

theorem ConcreteEntry.ofTree?_members {e : ConcreteEntry} {depth : Nat}
    (fits : (ofValue e.definition.value).depth ≤ depth + 1) :
    ofTree? (depth + 1) (ofValue (.object e.members)) = some e := by
  have slots : slots? [["content"], ["mimetype"], ["cubes"], ["definition"], ["urlquery"]]
      (ofValue (.object e.members)) = some ⟨false, [some (ofValue (.string e.content)),
        some (ofValue (.string e.mimetype)), some (ofValue (Value.strings e.cubes)),
        some (ofValue e.definition.value), e.source.map fun s => ofValue (.string s)]⟩ := by
    cases e with
    | mk _ _ _ _ source => cases source <;> rfl
  have cubes := strings?_ofValue depth e.cubes
  have definition := e.definition.ofTree?_ofValue fits
  rw [ofTree?, slots, Option.bind_eq_bind, Option.bind_some]
  simp only [Slots.required, Slots.part, List.getElem?_cons_succ, List.getElem?_cons_zero,
    Option.join_some, Option.bind_some, cubes, definition]
  cases e with
  | mk _ _ _ _ source => cases source <;> rfl

theorem BaseEntry.ofTree?_members {e : BaseEntry} {depth : Nat}
    (fits : (ofValue e.definition.value).depth ≤ depth + 1) :
    ofTree? (depth + 1) (ofValue (.object e.members)) = some e := by
  have slots : slots? [["data"], ["cubes"], ["definition"]] (ofValue (.object e.members)) =
      some ⟨false, [some (ofValue (.string e.data)), some (ofValue (Value.strings e.cubes)),
        some (ofValue e.definition.value)]⟩ := rfl
  have cubes := strings?_ofValue depth e.cubes
  have definition := e.definition.ofTree?_ofValue fits
  rw [ofTree?, slots, Option.bind_eq_bind, Option.bind_some]
  simp only [Slots.required, Slots.part, List.getElem?_cons_succ, List.getElem?_cons_zero,
    Option.join_some, Option.bind_some, cubes, definition]
  rfl

namespace CacheEntry

/-- The definition an entry is kept with. -/
def definition : CacheEntry → Document
  | concrete e => e.definition
  | base e => e.definition

/-- The entry is not too deep to be read again. -/
def Readable (e : CacheEntry) : Prop := (ofValue e.definition.value).depth < depthLimit

instance (e : CacheEntry) : Decidable e.Readable := inferInstanceAs (Decidable (_ < _))

/-- Besides its definition an entry holds nothing but texts. -/
theorem mem_members {e : CacheEntry} {m : String × Value} (member : m ∈ e.members) :
    (∃ s, m.2 = .string s) ∨ (∃ l, m.2 = Value.strings l) ∨ m.2 = e.definition.value := by
  cases e with
  | concrete e =>
    rcases List.mem_append.1 member with fixed | source
    · simp only [List.mem_cons, List.not_mem_nil, or_false] at fixed
      rcases fixed with rfl | rfl | rfl | rfl
      · exact .inl ⟨_, rfl⟩
      · exact .inl ⟨_, rfl⟩
      · exact .inr (.inl ⟨_, rfl⟩)
      · exact .inr (.inr rfl)
    · obtain ⟨s, _, rfl⟩ := Option.map_eq_some_iff.1 (Option.mem_toList.1 source)
      exact .inl ⟨s, rfl⟩
  | base e =>
    simp only [members, BaseEntry.members, List.mem_cons, List.not_mem_nil, or_false] at member
    rcases member with rfl | rfl | rfl
    · exact .inl ⟨_, rfl⟩
    · exact .inr (.inl ⟨_, rfl⟩)
    · exact .inr (.inr rfl)

theorem writable_toValue (e : CacheEntry) : e.toValue.Writable := by
  rw [toValue, Value.writable_object_iff, List.forall_mem_cons]
  refine ⟨trivial, ?_⟩
  intro m member
  rcases mem_members member with ⟨s, holds⟩ | ⟨l, holds⟩ | holds
  · rw [holds]
    exact trivial
  · rw [holds]
    exact Value.writable_strings l
  · rw [holds]
    exact Value.writable_of_canonical e.definition.canonical

theorem depth_toValue {e : CacheEntry} (readable : e.Readable) :
    (ofValue e.toValue).depth ≤ depthLimit := by
  apply depth_object_le
  rw [List.forall_mem_cons]
  refine ⟨Nat.zero_le _, ?_⟩
  intro m member
  rcases mem_members member with ⟨s, holds⟩ | ⟨l, holds⟩ | holds
  · rw [holds]
    exact Nat.zero_le _
  · rw [holds]
    exact Nat.le_trans (depth_strings_le l) (by decide)
  · rw [holds]
    exact Nat.le_of_lt_succ readable

theorem tagged?_toValue (e : CacheEntry) :
    tagged? (ofValue e.toValue) = some (e.kind, ofValue (.object e.members)) := by
  cases e with
  | base e => rfl
  | concrete e =>
    cases e with
    | mk _ _ _ _ source => cases source <;> rfl

/-- A readable entry is read back from its text. -/
theorem read?_text {e : CacheEntry} (readable : e.Readable) : read? e.text = some e := by
  have writable := writable_toValue e
  obtain ⟨v, value, _⟩ := Value.ofTree?_ofValue writable (depth_toValue readable)
  have tree : Tree.read? e.text.toList = some (ofValue e.toValue) := by
    rw [text, Value.text, String.toList_ofList, read?_chars writable]
  have rest : ofKind? depthLimit (ofValue (.object e.members)) e.kind = some e := by
    cases e with
    | concrete e =>
      have fits : (ofValue e.definition.value).depth ≤ depthLimit := Nat.le_of_lt readable
      exact congrArg (Option.map concrete) (ConcreteEntry.ofTree?_members fits)
    | base e =>
      have fits : (ofValue e.definition.value).depth ≤ depthLimit := Nat.le_of_lt readable
      exact congrArg (Option.map base) (BaseEntry.ofTree?_members fits)
  rw [read?, tree, Option.bind_some, ofTree?, value, tagged?_toValue]
  exact rest

theorem definition_mem_members (e : CacheEntry) : ("definition", e.definition.value) ∈ e.members := by
  cases e <;> simp [members, ConcreteEntry.members, BaseEntry.members, definition]

/-- An entry that lies too deep is written, but cannot be read. -/
theorem read?_text_of_deep {e : CacheEntry} (deep : ¬ e.Readable) : read? e.text = none := by
  have writable := writable_toValue e
  have tree : Tree.read? e.text.toList = some (ofValue e.toValue) := by
    rw [text, Value.text, String.toList_ofList, read?_chars writable]
  have unread : Value.ofTree? depthLimit (ofValue e.toValue) = none := by
    rw [Option.eq_none_iff_forall_not_mem]
    intro v read
    have inside := depth_lt_depth_object
      (List.mem_cons_of_mem ("kind", .string e.kind.name) e.definition_mem_members)
    exact deep (Nat.lt_of_lt_of_le inside (Value.depth_le_of_ofTree? read))
  rw [read?, tree, Option.bind_some, ofTree?, unread]
  rfl

end CacheEntry

/-- What is kept under a key is found there, and under every other key what was there before. -/
class LawfulCache (σ : Type) [Cache σ] : Prop where
  get_set (cache : σ) (key : String) {e : CacheEntry} (readable : e.Readable) (k : String) :
    Cache.get (Cache.set cache key e) k = if k = key then .ok (some e) else Cache.get cache k

instance : LawfulCache MemoryCache where
  get_set cache key e _ k := by
    simp only [Cache.get, Cache.set, SortedMap.find?_insert]
    split <;> rfl

instance : LawfulCache Database where
  get_set db key e readable k := by
    simp only [Cache.get, Cache.set, SortedMap.find?_insert]
    by_cases same : k = key
    · simp [same, CacheEntry.read?_text readable]
    · simp [same]

theorem IndexedCache.keyUnder_injective {index index' key key' : String} (plain : '/' ∉ key.toList)
    (plain' : '/' ∉ key'.toList) (same : keyUnder index key = keyUnder index' key') :
    index = index' ∧ key = key' := by
  have chars : index.toList ++ '/' :: key.toList = index'.toList ++ '/' :: key'.toList := by
    simpa [keyUnder] using congrArg String.toList same
  have back := Text.append_cons_right_cancel plain plain' chars
  rw [back, List.append_cancel_right_eq] at chars
  exact ⟨String.toList_inj.1 chars, String.toList_inj.1 back⟩

theorem IndexedCache.keyUnder_inj {index key key' : String} :
    keyUnder index key = keyUnder index key' ↔ key = key' := by
  simp [keyUnder, ← String.toList_inj]

instance [Cache σ] [LawfulCache σ] : LawfulCache (IndexedCache σ) where
  get_set cache key e readable k := by
    have get := LawfulCache.get_set cache.inner (IndexedCache.keyUnder cache.index key) readable
      (IndexedCache.keyUnder cache.index k)
    simp only [IndexedCache.keyUnder_inj] at get
    exact get

end RegionalTables
