import RegionalTables.Filter.Search

/-! The JSON form of a filter is answered as the filter is. A document store reads the form by rules
of its own, which differ from the filter's where groups are left out: its alternatives are optional
beside required clauses, and one of them must match where there are none. -/
namespace RegionalTables.Filter

open Json

/-- The answers to the clauses of each group. A group that is left out has no clauses. -/
structure Groups where
  must : List Bool
  mustNot : List Bool
  should : List Bool
  /-- How many alternatives have to match, where the form says so. -/
  minimum : Option Nat

namespace Groups

def empty : Groups := ⟨[], [], [], none⟩

def put? (g : Groups) (answers : List Bool) : String → Option Groups
  | "must" => some { g with must := answers }
  | "must_not" => some { g with mustNot := answers }
  | "should" => some { g with should := answers }
  | _ => none

/-- Where the form does not say how many, alternatives are optional beside required clauses. -/
def needed (g : Groups) : Nat :=
  match g.minimum with
  | some n => n
  | none => if g.must.isEmpty && !g.should.isEmpty then 1 else 0

def holds (g : Groups) : Bool :=
  g.must.all id && !g.mustNot.any id && decide (g.needed ≤ g.should.count true)

end Groups

def string? : Value → Option String
  | .string s => some s
  | _ => none

def bounds? : List (String × Value) → Option (Option Int × Option Int)
  | [] => some (none, none)
  | ("gte", .number (.integer n)) :: rest => (bounds? rest).map fun b => (some n, b.2)
  | ("lte", .number (.integer n)) :: rest => (bounds? rest).map fun b => (b.1, some n)
  | _ => none

/-- The predicate that a clause without groups states. -/
def leaf? : String → Value → Option Filter
  | "term", .object [(field, .string value)] => some (.term field value)
  | "terms", .object [(field, .array values)] => (values.mapM string?).map (.terms field)
  | "range", .object [(field, .object members)] =>
    (bounds? members).map fun b => .range field b.1 b.2
  | "exists", .object [("field", .string field)] => some (.present field)
  | "prefix", .object [(field, .string text)] => some (.starts field text)
  | _, _ => none

mutual

/-- The store's answer to a clause, or `none` for what is no clause. -/
def answer? (fact : Fact) : Value → Option Bool
  | .object [("bool", .object members)] => (groups? fact members).map Groups.holds
  | .object [(kind, argument)] => (leaf? kind argument).map (accepts fact)
  | _ => none

def groups? (fact : Fact) : List (String × Value) → Option Groups
  | [] => some .empty
  | ("minimum_should_match", .number (.integer n)) :: rest =>
    (groups? fact rest).map fun g => { g with minimum := some n.toNat }
  | (name, .array clauses) :: rest =>
    match answers? fact clauses, groups? fact rest with
    | some answers, some g => g.put? answers name
    | _, _ => none
  | _ => none

def answers? (fact : Fact) : List Value → Option (List Bool)
  | [] => some []
  | v :: rest =>
    match answer? fact v, answers? fact rest with
    | some answer, some answers => some (answer :: answers)
    | _, _ => none

end

theorem mapM_string? (values : List String) :
    (values.map Value.string).mapM string? = some values := by
  induction values with
  | nil => rfl
  | cons value values ih => rw [List.map_cons, List.mapM_cons, ih]; rfl

theorem bounds?_bounds (low high : Option Int) : bounds? (bounds low high) = some (low, high) := by
  cases low <;> cases high <;> rfl

theorem answer?_leaf {fact : Fact} {kind : String} {argument : Value} {f : Filter}
    (single : kind ≠ "bool") (read : leaf? kind argument = some f) :
    answer? fact (.object [(kind, argument)]) = some (accepts fact f) := by
  rw [answer?, read, Option.map_some]
  exact fun _ same _ => single same

theorem answers?_searchList {fact : Fact} {l : List Filter}
    (each : ∀ f ∈ l, answer? fact f.search = some (accepts fact f)) :
    answers? fact (searchList l) = some (l.map (accepts fact)) := by
  induction l with
  | nil => rfl
  | cons f l ih =>
    obtain ⟨first, rest⟩ := List.forall_mem_cons.1 each
    simp only [searchList, answers?, first, ih rest, List.map_cons]

/-- A group adds its answers to those of the groups after it. Left out, it adds none. -/
theorem groups?_group {fact : Fact} {l : List Filter} {name : String} {rest : List (String × Value)}
    {g g' : Groups} (each : ∀ f ∈ l, answer? fact f.search = some (accepts fact f))
    (after : groups? fact rest = some g) (put : g.put? (l.map (accepts fact)) name = some g')
    (without : l = [] → g = g') : groups? fact (group name (searchList l) ++ rest) = some g' := by
  cases l with
  | nil => simpa [group, searchList, ← without rfl] using after
  | cons f l =>
    have read := answers?_searchList each
    rw [searchList] at read
    simp only [group, searchList, List.isEmpty_cons, Bool.false_eq_true, if_false,
      List.cons_append, List.nil_append, groups?, read, after, put]

theorem groups?_groups {fact : Fact} {must mustNot should : List Filter}
    (required : ∀ f ∈ must, answer? fact f.search = some (accepts fact f))
    (forbidden : ∀ f ∈ mustNot, answer? fact f.search = some (accepts fact f))
    (alternative : ∀ f ∈ should, answer? fact f.search = some (accepts fact f)) :
    groups? fact (group "must" (searchList must) ++ (group "must_not" (searchList mustNot) ++
      (group "should" (searchList should) ++ []))) =
        some ⟨must.map (accepts fact), mustNot.map (accepts fact), should.map (accepts fact), none⟩ := by
  apply groups?_group required (g := ⟨[], mustNot.map (accepts fact), should.map (accepts fact), none⟩)
  · apply groups?_group forbidden (g := ⟨[], [], should.map (accepts fact), none⟩)
    · refine groups?_group alternative (g := .empty) ?_ rfl ?_
      · rfl
      · rintro rfl
        rfl
    · rfl
    · rintro rfl
      rfl
  · rfl
  · rintro rfl
    rfl

/-- One alternative must match where there is any, whether the form says so or leaves it open. -/
theorem Groups.holds_eq {g : Groups}
    (minimum : g.minimum = if g.must.isEmpty || g.should.isEmpty then none else some 1) :
    g.holds = (g.must.all id && !g.mustNot.any id && (g.should.isEmpty || g.should.any id)) := by
  have enough : decide (g.needed ≤ g.should.count true) = (g.should.isEmpty || g.should.any id) := by
    cases alternatives : g.should with
    | nil => simp [needed, minimum, alternatives]
    | cons a l =>
      have one : g.needed = 1 := by
        cases required : g.must <;> simp [needed, minimum, required, alternatives]
      have positive : decide (1 ≤ (a :: l).count true) = (a :: l).any id := by
        rw [Bool.eq_iff_iff, decide_eq_true_iff, List.any_eq_true]
        exact List.one_le_count_iff.trans (by simp)
      rw [one, positive, List.isEmpty_cons, Bool.false_or]
  rw [holds, enough]

theorem answer?_bool {fact : Fact} {must mustNot should : List Filter}
    (required : ∀ f ∈ must, answer? fact f.search = some (accepts fact f))
    (forbidden : ∀ f ∈ mustNot, answer? fact f.search = some (accepts fact f))
    (alternative : ∀ f ∈ should, answer? fact f.search = some (accepts fact f)) :
    answer? fact (search (.bool must mustNot should)) =
      some (accepts fact (.bool must mustNot should)) := by
  have read := groups?_groups required forbidden alternative
  rw [List.append_nil] at read
  rw [search, answer?, accepts, acceptsAll_eq, acceptsAny_eq, acceptsAny_eq]
  cases optional : must.isEmpty || should.isEmpty with
  | true =>
    simp only [if_true, List.nil_append, List.append_assoc, read, Option.map_some]
    rw [Groups.holds_eq (by simp [optional])]
    simp
  | false =>
    simp only [Bool.false_eq_true, if_false, List.append_assoc, List.cons_append, List.nil_append, groups?,
      read, Option.map_some, Value.integer]
    rw [Groups.holds_eq (by simp [optional])]
    simp

/-- For every filter and every fact the store answers the form as the filter does. -/
theorem answer?_search (fact : Fact) (f : Filter) : answer? fact f.search = some (accepts fact f) := by
  cases f with
  | term field value => exact answer?_leaf (by decide) rfl
  | terms field values =>
    refine answer?_leaf (by decide) ?_
    rw [Value.strings, leaf?, mapM_string?]
    rfl
  | range field low high =>
    refine answer?_leaf (by decide) ?_
    rw [leaf?, bounds?_bounds]
    rfl
  | present field => exact answer?_leaf (by decide) rfl
  | starts field text => exact answer?_leaf (by decide) rfl
  | bool must mustNot should =>
    exact answer?_bool (fun f _ => answer?_search fact f) (fun f _ => answer?_search fact f)
      (fun f _ => answer?_search fact f)
termination_by f

end RegionalTables.Filter
