import Mathlib.Data.List.Basic
import RegionalTables.Proofs.BaseTable.Complete
import RegionalTables.Proofs.Catalog.Filing

/-! Nodes told by their own keys. Whoever looks nodes up, goes by the keys of the maps or takes the
keys that the nodes carry means the same nodes: the check, the filter and the rows of a base table. -/
namespace RegionalTables

namespace SortedMap.FiledBy

variable {key : α → String} {m : SortedMap String α} (filed : m.FiledBy key)

include filed

theorem keys_eq : m.keys = m.values.map key := by
  rw [keys, values, List.map_map]
  exact List.map_congr_left fun e own => (filed e.1 e.2 own).symm

/-- Going through the values by the keys they carry is going through the entries. -/
theorem flatMap_values (f : String → α → List β) :
    (m.values.flatMap fun x => f (key x) x) = m.entries.flatMap fun e => f e.1 e.2 := by
  rw [values, List.flatMap_map]
  exact List.flatMap_congr fun e own => by rw [filed e.1 e.2 own]

/-- Where everything asked for is there, one may go through what there is or through what is asked
for. -/
theorem filterMap_values {n : SortedMap String β} {f : α → β → γ} {g : String → β → γ}
    (each : ∀ k y, n.find? k = some y → ∃ x, m.find? k = some x ∧ f x y = g k y) :
    (m.values.filterMap fun x => (n.find? (key x)).map (f x)) = n.entries.map fun e => g e.1 e.2 := by
  have swapped : (m.filterMap fun k x => (n.find? k).map (f x)) =
      n.filterMap fun k y => (m.find? k).map (f · y) := by
    apply ext_find?
    intro k
    rw [find?_filterMap, find?_filterMap]
    cases m.find? k <;> cases n.find? k <;> rfl
  calc m.values.filterMap (fun x => (n.find? (key x)).map (f x))
    _ = m.entries.filterMap fun e => (n.find? e.1).map (f e.2) := by
        rw [values, List.filterMap_map]
        exact List.filterMap_congr fun e own => by rw [Function.comp_apply, filed e.1 e.2 own]
    _ = n.entries.filterMap fun e => (m.find? e.1).map (f · e.2) := by
        simpa only [values_filterMap] using congrArg values swapped
    _ = n.entries.map fun e => g e.1 e.2 := by
        refine List.filterMap_eq_map_iff_forall_eq_some.2 fun e own => ?_
        obtain ⟨x, found, same⟩ := each e.1 e.2 (find?_eq_some_iff.2 own)
        rw [found, Option.map_some, same]

end SortedMap.FiledBy

/-! The filter. -/

namespace Filter

/-- The facts in the selected cell of a measure, told by the keys that it and its dimensions carry. -/
def cellOf (m : Measure) (b : Breakdown) : Filter :=
  .bool (.present m.key :: b.entries.map (required m.key))
    (b.entries.filterMap (excludedValues m.key (some m)) ++
      (m.dimensions.values.filter fun d => !b.contains d.key).map fun d =>
        .present (dimensionPath m.key d.key))
    []

def cellsOf (s : Statistic) (choice : MeasureChoice) : Filter :=
  all [.term "statistic" s.key,
    any (s.measures.values.filterMap fun m => (choice.find? m.key).map (cellOf m))]

/-- The filter of a query, made by going through the nodes of the catalog. -/
def ofNodes (c : Catalog) (q : Query) : Filter :=
  all (conditions q ++ [any (c.statistics.values.filterMap fun s =>
    (q.data.statistic? s.key).map (cellsOf s))])

variable {c : Catalog}

theorem cell_eq_cellOf {statistic : String} {m : Measure}
    (found : c.measure? statistic m.key = some m) (filed : m.Filed) (b : Breakdown) :
    cell c statistic (m.key, b) = cellOf m b := by
  have dimensions : excludedDimensions m.key (some m) b =
      (m.dimensions.values.filter fun d => !b.contains d.key).map fun d =>
        .present (dimensionPath m.key d.key) := by
    rw [excludedDimensions, SortedMap.FiledBy.keys_eq filed, List.filter_map, List.map_map]
    rfl
  rw [cell, found, dimensions, cellOf]

theorem cells_eq_cellsOf {s : Statistic} (found : c.statistic? s.key = some s) (filed : s.Filed)
    {choice : MeasureChoice} (known : ∀ j b, choice.find? j = some b → ∃ m, s.measure? j = some m) :
    cells c (s.key, choice) = cellsOf s choice := by
  have each : ∀ j b, choice.find? j = some b →
      ∃ m, s.measures.find? j = some m ∧ cellOf m b = cell c s.key (j, b) := by
    intro j b chosen
    obtain ⟨m, here⟩ := known j b chosen
    have member := SortedMap.find?_eq_some_iff.1 here
    obtain rfl := filed.measures j m member
    have measured : c.measure? s.key m.key = some m := by
      rw [Catalog.measure?, found, Option.bind_some, here]
    exact ⟨m, here, (cell_eq_cellOf measured (filed.below _ m member) b).symm⟩
  rw [cells, cellsOf, filed.measures.filterMap_values each]

theorem ofQuery_eq_ofNodes {names : RegionNames} {q : Query} (filed : c.Filed)
    (checked : c.check names q = .ok ()) : ofQuery c q = ofNodes c q := by
  have each : ∀ k choice, q.data.statistics.find? k = some choice →
      ∃ s, c.statistics.find? k = some s ∧ cellsOf s choice = cells c (k, choice) := by
    intro k choice selected
    obtain ⟨s, found⟩ := Catalog.statistic_of_check checked selected
    have member := SortedMap.find?_eq_some_iff.1 found
    obtain rfl := filed.statistics k s member
    refine ⟨s, found, (cells_eq_cellsOf found (filed.below _ s member) fun j b chosen => ?_).symm⟩
    have asked : q.data.measure? s.key j = some b := by
      rw [Selection.measure?, Selection.statistic?, selected, Option.bind_some, chosen]
    obtain ⟨m, measured, _⟩ := Catalog.measure?_of_check checked asked
    rw [Catalog.measure?, found, Option.bind_some] at measured
    exact ⟨m, measured⟩
  rw [ofQuery, ofNodes]
  simp only [Selection.statistic?, filed.statistics.filterMap_values each]

end Filter

/-! The base table. -/

namespace BaseTable

def ofStatisticNode (q : Query) (facts : List Fact) (s : Statistic) : List Observation :=
  let own := facts.filter fun f => f.text? "statistic" == some s.key
  s.measures.values.flatMap fun m => ofMeasure q own s.key m.key m

/-- The table of a query, made by going through the nodes of the view. -/
def ofNodes (view : Catalog) (q : Query) (facts : List Fact) : BaseTable where
  observations := view.statistics.values.flatMap (ofStatisticNode q facts)
  cubes := cubesOf facts

theorem ofStatisticNode_eq {s : Statistic} (filed : s.Filed) (q : Query) (facts : List Fact) :
    ofStatisticNode q facts s = ofStatistic q facts s.key s :=
  filed.measures.flatMap_values fun k m =>
    ofMeasure q (facts.filter fun f => f.text? "statistic" == some s.key) s.key k m

theorem ofNodes_eq_ofFacts {view : Catalog} (filed : view.Filed) (q : Query) (facts : List Fact) :
    ofNodes view q facts = ofFacts view q facts := by
  have rows : view.statistics.values.flatMap (ofStatisticNode q facts) =
      view.statistics.entries.flatMap fun e => ofStatistic q facts e.1 e.2 := by
    rw [← filed.statistics.flatMap_values (ofStatistic q facts)]
    refine List.flatMap_congr fun s own => ?_
    obtain ⟨e, member, rfl⟩ := List.mem_map.1 own
    exact ofStatisticNode_eq (filed.below e.1 e.2 member) q facts
  rw [ofNodes, rows, ofFacts]

end BaseTable

/-! The keys of a selection. -/

/-- The selection names a part by these keys. -/
def Selection.Names (s : Selection) : List String → Prop
  | [k] => (s.statistic? k).isSome
  | [k, j] => (s.measure? k j).isSome
  | [k, j, i] => (s.values? k j i).isSome
  | _ => False

namespace Catalog

variable {c : Catalog}

theorem names_iff_of_check {names : RegionNames} {q : Query} (checked : c.check names q = .ok ())
    (keys : List String) : q.data.Names keys ↔ ((c.restrict q.data).node? keys).isSome := by
  have view := isView_of_check checked
  match keys with
  | [k] => rw [node?, Option.isSome_map, view.statistics, Selection.Names]
  | [k, j] => rw [node?, Option.isSome_map, view.measures, Selection.Names]
  | [k, j, i] => rw [node?, Option.isSome_map, view.dimensions, Selection.Names]
  | [] | _ :: _ :: _ :: _ :: _ => simp [node?, Selection.Names]

/-- Where nodes are looked up, where the keys of the maps are used and where those that the nodes carry
are used, the same nodes are meant, in the catalog as in the view of a selection. -/
structure NamesAgree (c : Catalog) (s : Selection) : Prop where
  lookedUp : ∀ filed own n, (c.restrict s).Reaches filed own n →
    ∃ whole, c.node? own = some whole ∧ n.PrunedFrom whole
  /-- An accepted query names the nodes of its view, by the keys they carry. -/
  accepted : ∀ names q, q.data = s → c.check names q = .ok () →
    ∀ keys, s.Names keys ↔ ∃ n, (c.restrict s).Reaches keys keys n
  cell : ∀ filed statistic measure m, c.Reaches filed [statistic, measure] (.measure m) →
    ∀ b, Filter.cell c statistic (measure, b) = Filter.cellOf m b
  filter : ∀ names q, q.data = s → c.check names q = .ok () →
    Filter.ofQuery c q = Filter.ofNodes c q
  table : ∀ q facts, BaseTable.ofFacts (c.restrict s) q facts =
    BaseTable.ofNodes (c.restrict s) q facts

theorem Filed.namesAgree (filed : c.Filed) (s : Selection) : c.NamesAgree s where
  lookedUp _ _ _ reached := node_of_restrict ((filed.restrict s).underOwnKeys _ _ _ reached).2
  accepted names q same checked keys := by
    subst same
    rw [names_iff_of_check checked, Option.isSome_iff_exists]
    exact exists_congr fun n => (filed.restrict q.data).reaches_iff.symm
  cell keys statistic measure m reached b := by
    obtain ⟨_, found⟩ := filed.underOwnKeys _ _ _ reached
    cases reached with
    | measure above here =>
      refine Filter.cell_eq_cellOf ?_ ((filed.below _ _ above).below _ _ here) b
      simpa [node?] using found
  filter names q _ checked := Filter.ofQuery_eq_ofNodes filed checked
  table q facts := (BaseTable.ofNodes_eq_ofFacts (filed.restrict s) q facts).symm

/-- In a catalog that was read, and in every view of it, each node stands under the key it carries, by
which one finds it; so the check, the filter and the rows of a base table are about the same nodes. -/
theorem nodes_under_own_keys {c : Catalog} (loaded : c.Loaded) (s : Selection) :
    c.UnderOwnKeys ∧ (c.restrict s).UnderOwnKeys ∧ c.NamesAgree s := by
  have filed := loaded.filed
  exact ⟨filed.underOwnKeys, (filed.restrict s).underOwnKeys, filed.namesAgree s⟩

end Catalog

namespace Sample

/-- Two statistics claim one key, two measures another, and a dimension takes a key under which there
is a second one. -/
def colliding : Json.Tree := .object [
  (some "a", .object [
    (some "key", .string "12411"),
    (some "measures", .object [(some "BEV001", .object [])])]),
  (some "b", .object [
    (some "key", .string "12411"),
    (some "measures", .object [
      (some "BEVSTD", .object [(some "name", .string "replaced")]),
      (some "x", .object [
        (some "key", .string "BEVSTD"),
        (some "dimensions", .object [
          (some "GES", .object [(some "key", .string "NAT")]),
          (some "y", .object [
            (some "key", .string "GES"),
            (some "values", .array [.object [(some "key", .string "GESW")]])])])])])])]

def collided : Catalog := ⟨"Regionalstatistik", .ofList [("12411", {
  key := "12411"
  name := "12411"
  description := none
  measures := .ofList [("BEVSTD", {
    key := "BEVSTD"
    name := "BEVSTD"
    levels := none
    dimensions := .ofList [
      ("GES", ⟨"GES", "GES", [⟨"GESW", "GESW"⟩]⟩),
      ("NAT", ⟨"NAT", "NAT", []⟩)] })] })]⟩

end Sample

theorem Catalog.own_keys_of_collided :
    Catalog.ofTree? "Regionalstatistik" 9 Sample.colliding = some Sample.collided ∧
      Sample.collided.Loaded ∧ Sample.collided.UnderOwnKeys ∧
      (Sample.collided.restrict Sample.query.data).UnderOwnKeys ∧
      Sample.collided.NamesAgree Sample.query.data ∧
      Sample.collided.check Sample.names Sample.query = .ok () ∧
      (Sample.collided.restrict Sample.query.data).node? ["12411", "BEVSTD", "GES"] =
        some (.dimension ⟨"GES", "GES", [⟨"GESW", "GESW"⟩]⟩) ∧
      (Sample.collided.restrict Sample.query.data).node? ["12411", "BEVSTD", "NAT"] = none ∧
      (BaseTable.ofNodes (Sample.collided.restrict Sample.query.data) Sample.query
        [Sample.women]).observations.length = 1 := by
  have loads : Catalog.ofTree? "Regionalstatistik" 9 Sample.colliding = some Sample.collided := by
    decide +kernel
  have loaded : Sample.collided.Loaded := .tree _ _ _ loads
  obtain ⟨whole, view, agree⟩ := nodes_under_own_keys loaded Sample.query.data
  exact ⟨loads, loaded, whole, view, agree, by decide +kernel, by decide +kernel,
    by decide +kernel, by decide +kernel⟩

end RegionalTables
