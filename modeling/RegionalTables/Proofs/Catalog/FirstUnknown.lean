import RegionalTables.Catalog.Check
import RegionalTables.Proofs.Fact
import RegionalTables.Proofs.Query.Checks
import RegionalTables.Proofs.Query.Selection

/-! What the check of a query finds. Everything a query mentions has a place in one order, in which
the parts of the selection come before their children and all of them before the levels, the parent
and the regions. The check accepts a query whose mentions are all known, and otherwise refuses the
first one that is not. -/
namespace RegionalTables

theorem Catalog.dimension?_eq_some_iff {c : Catalog} {statistic measure dimension : String}
    {d : Dimension} : c.dimension? statistic measure dimension = some d ↔
      ∃ m, c.measure? statistic measure = some m ∧ (dimension, d) ∈ m.dimensions.entries := by
  simp only [dimension?, Measure.dimension?, Option.bind_eq_some_iff, SortedMap.find?_eq_some_iff]

theorem Dimension.isSome_value?_iff {d : Dimension} {key : String} :
    (d.value? key).isSome = true ↔ ∃ v ∈ d.values, v.key = key := by
  simp [value?]

/-- A measure without levels has no restriction. -/
theorem Measure.allowsLevel_iff {m : Measure} {level : UInt8} :
    m.allowsLevel level = true ↔ ∀ levels, m.levels = some levels → level ∈ levels := by
  rw [allowsLevel]
  cases m.levels with
  | none => simp
  | some levels =>
    have listed : levels.contains level = true ↔ level ∈ levels := List.contains_iff_mem
    simpa using listed

theorem RegionNames.contains_eq_true_iff {n : RegionNames} {region : String} :
    n.contains region = true ↔ ∃ name, (region, name) ∈ n.names.entries := by
  simp only [contains, SortedMap.contains_iff, SortedMap.find?_eq_some_iff]

/-- Something that a query names. -/
inductive Mention where
  | statistic (statistic : String)
  | measure (statistic measure : String)
  | dimension (statistic measure dimension : String)
  | value (statistic measure dimension value : String)
  /-- A level at which a measure is asked for. -/
  | level (statistic measure : String) (level : UInt8)
  | parent (region : String)
  | region (region : String)
  deriving DecidableEq

namespace Mention

def Of (q : Query) : Mention → Prop
  | statistic s => (q.data.statistic? s).isSome
  | measure s m => q.data.Asks (.measure s m)
  | dimension s m d => q.data.Asks (.dimension s m d)
  | value s m d v => q.data.Asks (.value s m d v)
  | level s m l => q.data.Asks (.measure s m) ∧ ∃ levels, q.level = .levels levels ∧ l ∈ levels
  | parent r => q.parent = some r
  | region r => ∃ ids, q.region = .ids ids ∧ r ∈ ids

/-- Parts of the selection exist under their parents, a level is one that the measure allows, and
regions have a name. -/
def Known (c : Catalog) (names : RegionNames) : Mention → Prop
  | statistic s => (c.statistic? s).isSome
  | measure s m => (c.measure? s m).isSome
  | dimension s m d => (c.dimension? s m d).isSome
  | value s m d v => (c.dimension? s m d).any fun x => (x.value? v).isSome
  | level s m l => (c.measure? s m).any fun x => x.allowsLevel l
  | parent r | region r => names.contains r

instance (c : Catalog) (names : RegionNames) : (x : Mention) → Decidable (x.Known c names)
  | statistic _ | measure .. | dimension .. | value .. | level .. | parent _ | region _ =>
    inferInstanceAs (Decidable (_ = true))

/-- The catalog has entries under the keys that lead to it, a value is listed under its key, a measure
that lists levels lists this one, and a region has a name. -/
def Declared (c : Catalog) (names : RegionNames) : Mention → Prop
  | statistic s => ∃ x, (s, x) ∈ c.statistics.entries
  | measure s m => ∃ y x, (s, x) ∈ c.statistics.entries ∧ (m, y) ∈ x.measures.entries
  | dimension s m d => ∃ z y, (∃ x, (s, x) ∈ c.statistics.entries ∧ (m, y) ∈ x.measures.entries) ∧
      (d, z) ∈ y.dimensions.entries
  | value s m d v => ∃ z, (∃ y, (∃ x, (s, x) ∈ c.statistics.entries ∧ (m, y) ∈ x.measures.entries) ∧
      (d, z) ∈ y.dimensions.entries) ∧ ∃ w ∈ z.values, w.key = v
  | level s m l => ∃ y, (∃ x, (s, x) ∈ c.statistics.entries ∧ (m, y) ∈ x.measures.entries) ∧
      ∀ levels, y.levels = some levels → l ∈ levels
  | parent r | region r => ∃ name, (r, name) ∈ names.names.entries

theorem known_iff_declared {c : Catalog} {names : RegionNames} {x : Mention} :
    x.Known c names ↔ x.Declared c names := by
  cases x with
  | statistic _ =>
    simp only [Known, Declared, Catalog.statistic?, Option.isSome_iff_exists,
      SortedMap.find?_eq_some_iff]
  | measure _ _ => simp only [Known, Declared, Option.isSome_iff_exists, Catalog.measure?_eq_some_iff]
  | dimension _ _ _ =>
    simp only [Known, Declared, Option.isSome_iff_exists, Catalog.dimension?_eq_some_iff,
      Catalog.measure?_eq_some_iff]
  | value _ _ _ _ =>
    simp only [Known, Declared, Option.any_eq_true, Catalog.dimension?_eq_some_iff,
      Catalog.measure?_eq_some_iff, Dimension.isSome_value?_iff]
  | level _ _ _ =>
    simp only [Known, Declared, Option.any_eq_true, Catalog.measure?_eq_some_iff,
      Measure.allowsLevel_iff]
  | parent _ | region _ => exact RegionNames.contains_eq_true_iff

def rejection : Mention → Rejection
  | statistic s => .unknownStatistic s
  | measure s m => .unknownMeasure s m
  | dimension _ m d => .unknownDimension m d
  | value _ _ d v => .unknownValue d v
  | level _ m l => .levelNotAvailable m l
  | parent r => .unknownParent r
  | region r => .unknownRegion r

/-- The selection is looked at first, then the levels, the parent and the regions. -/
def stage : Mention → Nat
  | statistic _ | measure .. | dimension .. | value .. => 0
  | level .. => 1
  | parent _ => 2
  | region _ => 3

/-- The keys that lead to it. -/
def path : Mention → List String
  | statistic s => [s]
  | measure s m => [s, m]
  | dimension s m d => [s, m, d]
  | value s m d v => [s, m, d, v]
  | level s m _ => [s, m]
  | parent r | region r => [r]

def atLevel : Mention → UInt8
  | level _ _ l => l
  | _ => 0

/-- Within a stage the order is that of the keys, in which what has children comes before them; a
measure's levels are in ascending order. -/
def Before (x y : Mention) : Prop :=
  x.stage < y.stage ∨
    x.stage = y.stage ∧ (x.path < y.path ∨ x.path = y.path ∧ x.atLevel < y.atLevel)

theorem Before.asymm {x y : Mention} (before : x.Before y) : ¬ y.Before x := by
  rintro (stage | ⟨stage, keys | ⟨keys, level⟩⟩)
  · rcases before with earlier | ⟨same, _⟩ <;> omega
  · rcases before with earlier | ⟨_, keys' | ⟨keys', _⟩⟩
    · omega
    · exact List.lt_asymm keys keys'
    · exact List.lt_irrefl _ (keys' ▸ keys)
  · rcases before with earlier | ⟨_, keys' | ⟨_, level'⟩⟩
    · omega
    · exact List.lt_irrefl _ (keys ▸ keys')
    · exact UInt8.lt_asymm level level'

/-- The check of one mention. -/
def examine (c : Catalog) (names : RegionNames) (x : Mention) : Except Rejection Unit :=
  if x.Known c names then .ok () else .error x.rejection

theorem examine_eq_ok_iff {c : Catalog} {names : RegionNames} {x : Mention} :
    examine c names x = .ok () ↔ x.Known c names := by
  rw [examine]
  split <;> simp [*]

/-- Whatever is examined in order is found known, or refused at the first place. -/
theorem examine_decides (c : Catalog) (names : RegionNames) {l : List Mention}
    (order : l.Pairwise Before) : Decides (l.forM (examine c names))
      (fun _ => ∀ x ∈ l, x.Known c names)
      (fun r => ∃ x ∈ l, ¬ x.Known c names ∧ r = x.rejection ∧
        ∀ y ∈ l, ¬ y.Known c names → y = x ∨ x.Before y) := by
  apply Decides.of_total
  · exact fun _ known => forM_eq_ok_iff.2 fun x member => examine_eq_ok_iff.2 (known x member)
  · rintro r ⟨x, member, unknown, rfl, first⟩
    obtain ⟨before, after, rfl⟩ := List.append_of_mem member
    refine forM_first_error (fun y own => if_pos ?_) (if_neg unknown)
    refine Decidable.byContradiction fun bad => ?_
    have earlier : y.Before x := (List.pairwise_append.1 order).2.2 y own x (.head _)
    rcases first y (List.mem_append_left _ own) bad with rfl | later
    · exact earlier.asymm earlier
    · exact earlier.asymm later
  · rcases forall_or_first (·.Known c names) l with all | ⟨before, x, after, rfl, good, bad⟩
    · exact .inl ⟨(), all⟩
    · refine .inr ⟨x.rejection, x, by simp, bad, rfl, fun y own unknown => ?_⟩
      obtain ⟨_, rest, _⟩ := List.pairwise_append.1 order
      rcases List.mem_append.1 own with own | own
      · exact absurd (good y own) unknown
      · exact (List.mem_cons.1 own).imp_right ((List.pairwise_cons.1 rest).1 y)

/-! The mentions of a query in the order of the checks. -/

def ofDimension (statistic measure : String) (part : String × SortedSet String) : List Mention :=
  dimension statistic measure part.1 :: part.2.toList.map (value statistic measure part.1)

def ofMeasure (statistic : String) (choice : String × Breakdown) : List Mention :=
  measure statistic choice.1 :: choice.2.entries.flatMap (ofDimension statistic choice.1)

def ofStatistic (choice : String × MeasureChoice) : List Mention :=
  statistic choice.1 :: choice.2.entries.flatMap (ofMeasure choice.1)

def ofSelection (s : Selection) : List Mention := s.statistics.entries.flatMap ofStatistic

def ofLevels (levels : SortedSet UInt8) (choice : String × String × Breakdown) : List Mention :=
  levels.toList.map (level choice.1 choice.2.1)

def ofLevelChoice (q : Query) : List Mention :=
  match q.level with
  | .all => []
  | .levels levels => q.data.measures.flatMap (ofLevels levels)

def ofRegionChoice : RegionChoice → List Mention
  | .all => []
  | .ids ids => ids.toList.map region

def inOrder (q : Query) : List Mention :=
  ofSelection q.data ++ (ofLevelChoice q ++ (q.parent.toList.map parent ++ ofRegionChoice q.region))

theorem mem_ofSelection {s : Selection} {x : Mention} : x ∈ ofSelection s ↔
    (∃ k, x = statistic k ∧ (s.statistic? k).isSome) ∨
      (∃ k m, x = measure k m ∧ s.Asks (.measure k m)) ∨
      (∃ k m d, x = dimension k m d ∧ s.Asks (.dimension k m d)) ∨
      ∃ k m d v, x = value k m d v ∧ s.Asks (.value k m d v) := by
  simp only [ofSelection, ofStatistic, ofMeasure, ofDimension, List.mem_flatMap, List.mem_cons,
    List.mem_map, Prod.exists, ← SortedMap.find?_eq_some_iff, SortedSet.mem_toList,
    Selection.Asks, Selection.values?, Selection.measure?, Selection.statistic?,
    Option.isSome_iff_exists, Option.bind_eq_some_iff]
  grind

theorem mem_measures {s : Selection} {k m : String} {b : Breakdown} :
    (k, m, b) ∈ s.measures ↔ s.measure? k m = some b := by
  simp only [Selection.measures, List.mem_flatMap, List.mem_map, Prod.exists, Prod.mk.injEq,
    Selection.measure?_eq_some_iff]
  grind

theorem mem_ofLevelChoice {q : Query} {x : Mention} : x ∈ ofLevelChoice q ↔
    ∃ k m l, x = level k m l ∧ q.data.Asks (.measure k m) ∧
      ∃ levels, q.level = .levels levels ∧ l ∈ levels := by
  rw [ofLevelChoice]
  cases q.level with
  | all => simp
  | levels levels =>
    simp only [ofLevels, List.mem_flatMap, List.mem_map, Prod.exists, mem_measures, Selection.Asks,
      Option.isSome_iff_exists, SortedSet.mem_toList, LevelChoice.levels.injEq]
    grind

theorem mem_ofRegionChoice {choice : RegionChoice} {x : Mention} : x ∈ ofRegionChoice choice ↔
    ∃ r ids, x = region r ∧ choice = .ids ids ∧ r ∈ ids := by
  cases choice with
  | all => simp [ofRegionChoice]
  | ids ids => simp [ofRegionChoice, SortedSet.mem_toList, eq_comm, and_comm]

theorem mem_inOrder {q : Query} {x : Mention} : x ∈ inOrder q ↔ x.Of q := by
  simp only [inOrder, List.mem_append, List.mem_map, Option.mem_toList,
    mem_ofSelection, mem_ofLevelChoice, mem_ofRegionChoice]
  cases x <;> grind [Of]

/-! The order of the mentions. -/

/-- Parts of the selection at or below some keys, in order. -/
structure Branch (keys : List String) (l : List Mention) : Prop where
  stage : ∀ x ∈ l, x.stage = 0
  below : ∀ x ∈ l, keys <+: x.path
  order : l.Pairwise Before

theorem Branch.flatMap {keys : List String} {l : List α} {key : α → String}
    {f : α → List Mention} (ascending : l.Pairwise fun a b => compare (key a) (key b) = .lt)
    (each : ∀ a ∈ l, Branch (keys ++ [key a]) (f a)) : Branch keys (l.flatMap f) where
  stage x member := by
    obtain ⟨a, own, inside⟩ := List.mem_flatMap.1 member
    exact (each a own).stage x inside
  below x member := by
    obtain ⟨a, own, inside⟩ := List.mem_flatMap.1 member
    exact (List.prefix_append _ _).trans ((each a own).below x inside)
  order := by
    refine List.pairwise_flatMap.2 ⟨fun a own => (each a own).order, ?_⟩
    refine ascending.imp_of_mem fun {a b} ownA ownB before x inA y inB => ?_
    obtain ⟨s, first⟩ := (each a ownA).below x inA
    obtain ⟨t, second⟩ := (each b ownB).below y inB
    have keyOrder : key a < key b := compareOfLessAndEq_eq_lt.1 before
    refine .inr ⟨((each a ownA).stage x inA).trans ((each b ownB).stage y inB).symm, .inl ?_⟩
    rw [← first, ← second, List.append_assoc, List.append_assoc]
    exact List.append_left_lt (List.cons_lt_cons_iff.2 (.inl keyOrder))

/-- What has children comes before them. -/
theorem Branch.cons_flatMap (head : Mention) (stage : head.stage = 0) {l : List α}
    {key : α → String} {f : α → List Mention}
    (ascending : l.Pairwise fun a b => compare (key a) (key b) = .lt)
    (each : ∀ a ∈ l, Branch (head.path ++ [key a]) (f a)) :
    Branch head.path (head :: l.flatMap f) := by
  have children := Branch.flatMap ascending each
  refine ⟨List.forall_mem_cons.2 ⟨stage, children.stage⟩,
    List.forall_mem_cons.2 ⟨List.prefix_refl _, children.below⟩,
    List.pairwise_cons.2 ⟨fun x member => ?_, children.order⟩⟩
  obtain ⟨a, own, inside⟩ := List.mem_flatMap.1 member
  obtain ⟨t, longer⟩ := (each a own).below x inside
  have shorter : head.path ++ [] < head.path ++ key a :: t :=
    List.append_left_lt (List.nil_lt_cons _ _)
  refine .inr ⟨stage.trans (children.stage x member).symm, .inl ?_⟩
  rw [← longer]
  simpa using shorter

theorem branch_ofDimension (s m : String) (part : String × SortedSet String) :
    Branch [s, m, part.1] (ofDimension s m part) := by
  rw [ofDimension, List.map_eq_flatMap]
  exact .cons_flatMap (dimension s m part.1) rfl part.2.ascending fun v _ =>
    ⟨by simp [stage], by simp [path], by simp⟩

theorem branch_ofMeasure (s : String) (choice : String × Breakdown) :
    Branch [s, choice.1] (ofMeasure s choice) :=
  .cons_flatMap (measure s choice.1) rfl choice.2.ascending fun part _ =>
    branch_ofDimension s choice.1 part

theorem branch_ofStatistic (choice : String × MeasureChoice) :
    Branch [choice.1] (ofStatistic choice) :=
  .cons_flatMap (statistic choice.1) rfl choice.2.ascending fun inner _ =>
    branch_ofMeasure choice.1 inner

theorem branch_ofSelection (s : Selection) : Branch [] (ofSelection s) :=
  .flatMap s.statistics.ascending fun choice _ => branch_ofStatistic choice

theorem pairwise_measures (s : Selection) :
    s.measures.Pairwise fun a b => [a.1, a.2.1] < [b.1, b.2.1] := by
  rw [Selection.measures, List.pairwise_flatMap]
  constructor
  · intro choice _
    refine List.pairwise_map.2 (choice.2.ascending.imp fun before => ?_)
    exact List.cons_lt_cons_iff.2 (.inr ⟨rfl, List.cons_lt_cons_iff.2
      (.inl (compareOfLessAndEq_eq_lt.1 before))⟩)
  · refine s.statistics.ascending.imp fun before x inX y inY => ?_
    obtain ⟨_, _, rfl⟩ := List.mem_map.1 inX
    obtain ⟨_, _, rfl⟩ := List.mem_map.1 inY
    exact List.cons_lt_cons_iff.2 (.inl (compareOfLessAndEq_eq_lt.1 before))

theorem pairwise_ofLevelChoice (q : Query) : (ofLevelChoice q).Pairwise Before := by
  rw [ofLevelChoice]
  cases q.level with
  | all => exact .nil
  | levels levels =>
    refine List.pairwise_flatMap.2 ⟨fun choice _ => ?_, ?_⟩
    · refine List.pairwise_map.2 (levels.ascending.imp fun before => ?_)
      exact .inr ⟨rfl, .inr ⟨rfl, compareOfLessAndEq_eq_lt.1 before⟩⟩
    · refine (pairwise_measures q.data).imp fun before x inX y inY => ?_
      obtain ⟨_, _, rfl⟩ := List.mem_map.1 inX
      obtain ⟨_, _, rfl⟩ := List.mem_map.1 inY
      exact .inr ⟨rfl, .inl before⟩

theorem pairwise_ofRegionChoice (choice : RegionChoice) :
    (ofRegionChoice choice).Pairwise Before := by
  cases choice with
  | all => exact .nil
  | ids ids =>
    refine List.pairwise_map.2 (ids.ascending.imp fun before => ?_)
    exact .inr ⟨rfl, .inl (List.cons_lt_cons_iff.2 (.inl (compareOfLessAndEq_eq_lt.1 before)))⟩

theorem pairwise_inOrder (q : Query) : (inOrder q).Pairwise Before := by
  have selection := branch_ofSelection q.data
  have levels : ∀ x ∈ ofLevelChoice q, x.stage = 1 := by
    intro x member
    obtain ⟨_, _, _, rfl, _⟩ := mem_ofLevelChoice.1 member
    rfl
  have parents : ∀ x ∈ q.parent.toList.map parent, x.stage = 2 := by
    intro x member
    obtain ⟨_, _, rfl⟩ := List.mem_map.1 member
    rfl
  have regions : ∀ x ∈ ofRegionChoice q.region, x.stage = 3 := by
    intro x member
    obtain ⟨_, _, rfl, _⟩ := mem_ofRegionChoice.1 member
    rfl
  have single : (q.parent.toList.map parent).Pairwise Before := by
    cases q.parent <;> simp
  have apart {l l' : List Mention} {m n : Nat} (early : ∀ x ∈ l, x.stage = m)
      (late : ∀ y ∈ l', y.stage = n) (before : m < n) : ∀ x ∈ l, ∀ y ∈ l', x.Before y :=
    fun x inX y inY => .inl (by rw [early x inX, late y inY]; exact before)
  simp only [inOrder, List.pairwise_append, List.mem_append, or_imp, forall_and]
  exact ⟨selection.order, ⟨pairwise_ofLevelChoice q,
    ⟨single, pairwise_ofRegionChoice q.region, apart parents regions (by decide)⟩,
    apart levels parents (by decide), apart levels regions (by decide)⟩,
    apart selection.stage levels (by decide), apart selection.stage parents (by decide),
    apart selection.stage regions (by decide)⟩

/-! The check examines the mentions in this order. -/

section

variable {c : Catalog} {names : RegionNames}

/-- Where single mentions are examined, the first one that is not known is looked for. -/
theorem forM_examine_map {l : List α} {g : α → Mention} {bad : α → Bool}
    (each : ∀ a, (g a).Known c names ↔ bad a = false) :
    (l.map g).forM (examine c names) =
      (l.find? bad).elim (.ok ()) fun a => .error (g a).rejection := by
  rw [List.forM_eq_forM, List.forM_map, ← List.forM_eq_forM]
  refine forM_eq_find? fun a => ?_
  cases known : bad a with
  | false => exact if_pos ((each a).2 known)
  | true => exact if_neg fun holds => by simp [(each a).1 holds] at known

/-- What is found is examined further, and otherwise its absence is the answer. -/
theorem forM_examine_cons {head : Mention} (rest : List Mention) {found : Option α}
    (known : head.Known c names ↔ found.isSome) : (head :: rest).forM (examine c names) =
      found.elim (.error head.rejection) fun _ => rest.forM (examine c names) := by
  rw [List.forM_eq_forM, List.forM_cons, examine]
  cases found with
  | none => rw [if_neg (by simp [known])]; rfl
  | some _ => rw [if_pos (by simp [known])]; rfl

theorem checkDimension_eq {s m : String} {x : Measure} (found : c.measure? s m = some x)
    (part : String × SortedSet String) : Catalog.checkDimension m x part =
      (ofDimension s m part).forM (examine c names) := by
  have under : c.dimension? s m part.1 = x.dimension? part.1 := by
    rw [Catalog.dimension?, found, Option.bind_some]
  have head : (dimension s m part.1).Known c names ↔ (x.dimension? part.1).isSome := by
    rw [Known, under]
  rw [Catalog.checkDimension, ofDimension, forM_examine_cons _ head]
  cases known : x.dimension? part.1 with
  | none => rfl
  | some d =>
    have each (v : String) : (value s m part.1 v).Known c names ↔ (d.value? v).isNone = false := by
      simp [Known, under, known]
    rw [Option.elim_some, forM_examine_map each]
    dsimp only
    cases part.2.toList.find? fun v => (d.value? v).isNone <;> rfl

theorem checkMeasure_eq {s : String} {x : Statistic} (found : c.statistic? s = some x)
    (choice : String × Breakdown) : Catalog.checkMeasure s x choice =
      (ofMeasure s choice).forM (examine c names) := by
  have under : c.measure? s choice.1 = x.measure? choice.1 := by
    rw [Catalog.measure?, found, Option.bind_some]
  have head : (measure s choice.1).Known c names ↔ (x.measure? choice.1).isSome := by
    rw [Known, under]
  rw [Catalog.checkMeasure, ofMeasure, forM_examine_cons _ head]
  cases known : x.measure? choice.1 with
  | none => rfl
  | some m =>
    rw [Option.elim_some, forM_flatMap]
    exact congrArg _ (funext (checkDimension_eq (under.trans known)))

theorem checkStatistic_eq (choice : String × MeasureChoice) :
    c.checkStatistic choice = (ofStatistic choice).forM (examine c names) := by
  have head : (statistic choice.1).Known c names ↔ (c.statistic? choice.1).isSome := .rfl
  rw [Catalog.checkStatistic, ofStatistic, forM_examine_cons _ head]
  cases known : c.statistic? choice.1 with
  | none => rfl
  | some s =>
    rw [Option.elim_some, forM_flatMap]
    exact congrArg _ (funext (checkMeasure_eq known))

theorem checkSelection_eq (s : Selection) :
    c.checkSelection s = (ofSelection s).forM (examine c names) := by
  rw [Catalog.checkSelection, ofSelection, forM_flatMap]
  exact congrArg _ (funext checkStatistic_eq)

theorem checkLevels_eq (levels : SortedSet UInt8) {choice : String × String × Breakdown}
    (known : (measure choice.1 choice.2.1).Known c names) :
    c.checkLevels levels choice = (ofLevels levels choice).forM (examine c names) := by
  obtain ⟨m, found⟩ := Option.isSome_iff_exists.1 known
  have each (l : UInt8) : (level choice.1 choice.2.1 l).Known c names ↔
      (!m.allowsLevel l) = false := by
    simp [Known, found]
  rw [Catalog.checkLevels, found, ofLevels, forM_examine_map each]
  dsimp only
  cases levels.toList.find? fun l => !m.allowsLevel l <;> rfl

/-- Levels are looked for at known measures only. -/
theorem checkLevelChoice_eq {q : Query} (known : ∀ x ∈ ofSelection q.data, x.Known c names) :
    c.checkLevelChoice q = (ofLevelChoice q).forM (examine c names) := by
  rw [Catalog.checkLevelChoice, ofLevelChoice]
  cases q.level with
  | all => rfl
  | levels levels =>
    rw [forM_flatMap]
    refine forM_congr fun choice member => checkLevels_eq levels (known _ ?_)
    have asked := mem_measures.1 member
    exact mem_ofSelection.2 (.inr (.inl ⟨_, _, rfl, Option.isSome_iff_exists.2 ⟨_, asked⟩⟩))

theorem checkParent_eq (parents : Option String) : Catalog.checkParent names parents =
    (parents.toList.map parent).forM (examine c names) := by
  cases parents with
  | none => rfl
  | some r =>
    rw [Catalog.checkParent, Option.toList_some, List.map_singleton, List.forM_eq_forM,
      List.forM_cons, examine]
    cases known : names.contains r with
    | false => rw [if_neg Bool.false_ne_true, if_neg (by simp [Known, known])]; rfl
    | true => rw [if_pos (show (parent r).Known c names from known)]; rfl

theorem checkRegions_eq (choice : RegionChoice) : Catalog.checkRegions names choice =
    (ofRegionChoice choice).forM (examine c names) := by
  cases choice with
  | all => rfl
  | ids ids =>
    have each (r : String) : (region r).Known c names ↔ (!names.contains r) = false := by
      simp [Known]
    rw [Catalog.checkRegions, ofRegionChoice, forM_examine_map each]
    cases ids.toList.find? fun r => !names.contains r <;> rfl

/-- A check looks at everything that the query mentions, in order, up to the first failure. -/
theorem check_eq (q : Query) : c.check names q = (inOrder q).forM (examine c names) := by
  rw [Catalog.check, inOrder, forM_append, forM_append, forM_append, ← checkSelection_eq,
    ← checkParent_eq, ← checkRegions_eq]
  cases selection : c.checkSelection q.data with
  | error r => rfl
  | ok _ =>
    have examined : (ofSelection q.data).forM (examine c names) = .ok () := by
      rw [← checkSelection_eq, selection]
    have known : ∀ x ∈ ofSelection q.data, x.Known c names := fun x member =>
      examine_eq_ok_iff.1 (forM_eq_ok_iff.1 examined x member)
    rw [← checkLevelChoice_eq known]

/-- Only what is known can be mentioned in a query that is accepted. -/
theorem check_eq_ok_iff {q : Query} :
    c.check names q = .ok () ↔ ∀ x : Mention, x.Of q → x.Known c names := by
  simp only [check_eq, forM_eq_ok_iff, mem_inOrder, examine_eq_ok_iff]

end

end Mention

namespace Catalog

/-- The check accepts exactly the queries that mention nothing unknown. Any other it refuses for
the unknown mention that comes before all others. -/
theorem check_finds_first (c : Catalog) (names : RegionNames) (q : Query) :
    (c.check names q = .ok () ↔ ∀ x : Mention, x.Of q → x.Known c names) ∧
      ∀ r, c.check names q = .error r ↔ ∃ x : Mention, x.Of q ∧ ¬ x.Known c names ∧
        r = x.rejection ∧ ∀ y : Mention, y.Of q → ¬ y.Known c names → y = x ∨ x.Before y := by
  have decides := Mention.examine_decides c names (Mention.pairwise_inOrder q)
  rw [← Mention.check_eq] at decides
  simp only [Mention.mem_inOrder] at decides
  exact ⟨decides.ok (), decides.error⟩

end Catalog

end RegionalTables
