import RegionalTables.Catalog.Reading
import RegionalTables.Proofs.Catalog.View

/-! Under which keys the nodes of a catalog stand. A definition may file a node under one key and give
it another; in the catalog it stands under the key it carries, and so it does in every view. -/
namespace RegionalTables

/-- All values stand under the keys they carry. -/
def SortedMap.FiledBy (key : α → String) (m : SortedMap String α) : Prop :=
  ∀ k x, (k, x) ∈ m.entries → key x = k

theorem SortedMap.FiledBy.filterMap {key : α → String} {key' : β → String} {m : SortedMap String α}
    {f : String → α → Option β} (filed : m.FiledBy key)
    (keeps : ∀ k x y, f k x = some y → key' y = key x) : (m.filterMap f).FiledBy key' := by
  intro k y member
  obtain ⟨x, own, kept⟩ := mem_entries_filterMap.1 member
  exact (keeps k x y kept).trans (filed k x own)

/-! Nodes filed under their own keys. -/

/-- Of the nodes with one key the last is found. -/
theorem find?_fileUnder (key : α → String) (nodes : List α) (k : String) :
    (fileUnder key nodes).find? k = nodes.reverse.find? (key · == k) := by
  rw [fileUnder, SortedMap.find?_ofList, ← List.map_reverse]
  induction nodes.reverse with
  | nil => rfl
  | cons n rest ih =>
    rw [List.map_cons, SortedMap.findEntries, ih, List.find?_cons]
    by_cases same : key n = k
    · simp [same]
    · have apart : compare k (key n) ≠ .eq := fun bad =>
        same (Std.LawfulEqCmp.compare_eq_iff_eq.1 bad).symm
      rw [if_neg apart, beq_false_of_ne same]

theorem mem_fileUnder {key : α → String} {nodes : List α} {k : String} {n : α}
    (member : (k, n) ∈ (fileUnder key nodes).entries) : n ∈ nodes ∧ key n = k := by
  have found := SortedMap.find?_eq_some_iff.2 member
  rw [find?_fileUnder] at found
  exact ⟨List.mem_reverse.1 (List.mem_of_find?_eq_some found), by simpa using List.find?_some found⟩

theorem filedBy_fileUnder (key : α → String) (nodes : List α) : (fileUnder key nodes).FiledBy key :=
  fun _ _ member => (mem_fileUnder member).2

/-! The three levels of a catalog. -/

def Measure.Filed (m : Measure) : Prop := m.dimensions.FiledBy Dimension.key

structure Statistic.Filed (s : Statistic) : Prop where
  measures : s.measures.FiledBy Measure.key
  below : ∀ k m, (k, m) ∈ s.measures.entries → m.Filed

structure Catalog.Filed (c : Catalog) : Prop where
  statistics : c.statistics.FiledBy Statistic.key
  below : ∀ k s, (k, s) ∈ c.statistics.entries → s.Filed

/-! What is read from a definition. -/

theorem Measure.filed_ofRecord (filedKey : String) (r : MeasureRecord) :
    (Measure.ofRecord filedKey r).Filed :=
  filedBy_fileUnder _ _

theorem Statistic.filed_ofRecord (filedKey : String) (r : StatisticRecord) :
    (Statistic.ofRecord filedKey r).Filed where
  measures := filedBy_fileUnder _ _
  below := by
    intro k m member
    obtain ⟨e, _, rfl⟩ := List.mem_map.1 (mem_fileUnder member).1
    exact Measure.filed_ofRecord e.1 e.2

theorem Catalog.filed_ofRecords (name : String) (records : SortedMap String StatisticRecord) :
    (Catalog.ofRecords name records).Filed where
  statistics := filedBy_fileUnder _ _
  below := by
    intro k s member
    obtain ⟨e, _, rfl⟩ := List.mem_map.1 (mem_fileUnder member).1
    exact Statistic.filed_ofRecord e.1 e.2

/-- The catalog is what some definition says, be it a text or a tree read before. -/
inductive Catalog.Loaded (c : Catalog) : Prop
  | text (name text : String) (loads : read? name text = some c)
  | tree (name : String) (depth : Nat) (t : Json.Tree) (loads : ofTree? name depth t = some c)

theorem Catalog.Loaded.exists_records {c : Catalog} (loaded : c.Loaded) :
    ∃ name records, c = ofRecords name records := by
  have ofTree : ∀ name depth t, ofTree? name depth t = some c →
      ∃ name records, c = ofRecords name records := by
    intro name depth t loads
    obtain ⟨records, _, rfl⟩ := Option.map_eq_some_iff.1 loads
    exact ⟨name, records, rfl⟩
  cases loaded with
  | text name text loads =>
    obtain ⟨t, _, loads⟩ := Option.bind_eq_some_iff.1 loads
    exact ofTree _ _ t loads
  | tree name depth t loads => exact ofTree name depth t loads

theorem Catalog.Loaded.filed {c : Catalog} (loaded : c.Loaded) : c.Filed := by
  obtain ⟨name, records, rfl⟩ := loaded.exists_records
  exact filed_ofRecords name records

/-! What a view leaves out changes no key. -/

theorem Measure.Filed.restrict {m : Measure} (filed : m.Filed) (b : Breakdown) :
    (m.restrict b).Filed :=
  SortedMap.FiledBy.filterMap filed fun k d e kept => by
    obtain ⟨_, same⟩ := Option.ite_none_right_eq_some.1 kept
    rw [Option.some.inj same]

theorem Statistic.Filed.restrict {s : Statistic} (filed : s.Filed) (choice : MeasureChoice) :
    (s.restrict choice).Filed where
  measures := filed.measures.filterMap fun k m n kept => by
    obtain ⟨b, _, rfl⟩ := Option.map_eq_some_iff.1 kept
    rfl
  below := by
    intro k n member
    obtain ⟨m, own, kept⟩ := SortedMap.mem_entries_filterMap.1 member
    obtain ⟨b, _, rfl⟩ := Option.map_eq_some_iff.1 kept
    exact (filed.below k m own).restrict b

theorem Catalog.Filed.restrict {c : Catalog} (filed : c.Filed) (selection : Selection) :
    (c.restrict selection).Filed where
  statistics := filed.statistics.filterMap fun k s t kept => by
    obtain ⟨choice, _, rfl⟩ := Option.map_eq_some_iff.1 kept
    rfl
  below := by
    intro k t member
    obtain ⟨s, own, kept⟩ := SortedMap.mem_entries_filterMap.1 member
    obtain ⟨choice, _, rfl⟩ := Option.map_eq_some_iff.1 kept
    exact (filed.below k s own).restrict choice

/-! Nodes and the keys that lead to them. -/

/-- A part of a catalog that has a key. -/
inductive Node where
  | statistic (s : Statistic)
  | measure (m : Measure)
  | dimension (d : Dimension)
  deriving DecidableEq

/-- The node is the other one, but for the children left out of it. -/
def Node.PrunedFrom : Node → Node → Prop
  | statistic s, statistic whole => s = { whole with measures := s.measures }
  | measure m, measure whole => m = { whole with dimensions := m.dimensions }
  | dimension d, dimension whole => d = whole
  | _, _ => False

namespace Catalog

/-- The node under some keys, looked up level by level. -/
def node? (c : Catalog) : List String → Option Node
  | [s] => (c.statistic? s).map .statistic
  | [s, m] => (c.measure? s m).map .measure
  | [s, m, d] => (c.dimension? s m d).map .dimension
  | _ => none

/-- The catalog has the node below the keys `filed` of its maps, and the nodes passed on the way to it,
the last being itself, carry the keys `own`. -/
inductive Reaches (c : Catalog) : (filed own : List String) → Node → Prop
  | statistic {k : String} {s : Statistic} (here : (k, s) ∈ c.statistics.entries) :
      Reaches c [k] [s.key] (.statistic s)
  | measure {k j : String} {s : Statistic} {m : Measure} (above : (k, s) ∈ c.statistics.entries)
      (here : (j, m) ∈ s.measures.entries) : Reaches c [k, j] [s.key, m.key] (.measure m)
  | dimension {k j i : String} {s : Statistic} {m : Measure} {d : Dimension}
      (top : (k, s) ∈ c.statistics.entries) (above : (j, m) ∈ s.measures.entries)
      (here : (i, d) ∈ m.dimensions.entries) :
      Reaches c [k, j, i] [s.key, m.key, d.key] (.dimension d)

/-- Every node stands under its own key, and under that it is found. -/
def UnderOwnKeys (c : Catalog) : Prop :=
  ∀ filed own n, c.Reaches filed own n → own = filed ∧ c.node? own = some n

variable {c : Catalog} {s : Selection}

/-- One reaches the nodes that are found by the keys of the maps. -/
theorem exists_reaches_iff {filed : List String} {n : Node} :
    (∃ own, c.Reaches filed own n) ↔ c.node? filed = some n := by
  constructor
  · rintro ⟨own, reached⟩
    cases reached with
    | statistic here =>
      rw [node?, statistic?, SortedMap.find?_eq_some_iff.2 here, Option.map_some]
    | measure above here =>
      rw [node?, measure?, statistic?, SortedMap.find?_eq_some_iff.2 above, Option.bind_some,
        Statistic.measure?, SortedMap.find?_eq_some_iff.2 here, Option.map_some]
    | dimension top above here =>
      rw [node?, dimension?, measure?, statistic?, SortedMap.find?_eq_some_iff.2 top,
        Option.bind_some, Statistic.measure?, SortedMap.find?_eq_some_iff.2 above, Option.bind_some,
        Measure.dimension?, SortedMap.find?_eq_some_iff.2 here, Option.map_some]
  · intro found
    unfold node? at found
    split at found
    · obtain ⟨s, here, rfl⟩ := Option.map_eq_some_iff.1 found
      exact ⟨_, .statistic (SortedMap.find?_eq_some_iff.1 here)⟩
    · obtain ⟨m, named, rfl⟩ := Option.map_eq_some_iff.1 found
      obtain ⟨s, above, here⟩ := Option.bind_eq_some_iff.1 named
      exact ⟨_, .measure (SortedMap.find?_eq_some_iff.1 above) (SortedMap.find?_eq_some_iff.1 here)⟩
    · obtain ⟨d, named, rfl⟩ := Option.map_eq_some_iff.1 found
      obtain ⟨m, measured, here⟩ := Option.bind_eq_some_iff.1 named
      obtain ⟨s, top, above⟩ := Option.bind_eq_some_iff.1 measured
      exact ⟨_, .dimension (SortedMap.find?_eq_some_iff.1 top) (SortedMap.find?_eq_some_iff.1 above)
        (SortedMap.find?_eq_some_iff.1 here)⟩
    · contradiction

theorem Filed.own_eq (filed : c.Filed) {keys own : List String} {n : Node}
    (reached : c.Reaches keys own n) : own = keys := by
  cases reached with
  | statistic here => rw [filed.statistics _ _ here]
  | measure above here =>
    rw [filed.statistics _ _ above, (filed.below _ _ above).measures _ _ here]
  | dimension top above here =>
    have below := filed.below _ _ top
    rw [filed.statistics _ _ top, below.measures _ _ above, below.below _ _ above _ _ here]

theorem Filed.underOwnKeys (filed : c.Filed) : c.UnderOwnKeys := by
  intro keys own n reached
  have same := filed.own_eq reached
  exact ⟨same, same ▸ exists_reaches_iff.1 ⟨own, reached⟩⟩

theorem Filed.reaches_iff (filed : c.Filed) {keys : List String} {n : Node} :
    c.Reaches keys keys n ↔ c.node? keys = some n := by
  rw [← exists_reaches_iff]
  constructor
  · exact fun reached => ⟨keys, reached⟩
  · rintro ⟨own, reached⟩
    rwa [filed.own_eq reached] at reached

/-- What is found in a view is found in the catalog by the same keys. -/
theorem node_of_restrict {keys : List String} {n : Node}
    (found : (c.restrict s).node? keys = some n) :
    ∃ whole, c.node? keys = some whole ∧ n.PrunedFrom whole := by
  unfold node? at found
  split at found
  · obtain ⟨t, kept, rfl⟩ := Option.map_eq_some_iff.1 found
    obtain ⟨whole, known, same⟩ := statistic_of_restrict kept
    exact ⟨.statistic whole, by simp [node?, known], same⟩
  · obtain ⟨m, kept, rfl⟩ := Option.map_eq_some_iff.1 found
    obtain ⟨whole, known, same⟩ := measure_of_restrict kept
    exact ⟨.measure whole, by simp [node?, known], same⟩
  · obtain ⟨d, kept, rfl⟩ := Option.map_eq_some_iff.1 found
    exact ⟨.dimension d, by simp [node?, dimension_of_restrict kept], rfl⟩
  · contradiction

end Catalog

end RegionalTables
