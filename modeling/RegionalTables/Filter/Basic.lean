import RegionalTables.Fact

/-! Boolean filters on facts. -/
namespace RegionalTables

inductive Filter where
  | term (field value : String)
  | terms (field : String) (values : List String)
  /-- A missing bound is open. -/
  | range (field : String) (low high : Option Int)
  | present (field : String)
  | starts (field text : String)
  /-- All of `must`, none of `mustNot`, and one of `should` unless there are none. -/
  | bool (must mustNot should : List Filter)

namespace Filter

/-- One admitted value is a term of its own. -/
def oneOf (field : String) : List String → Filter
  | [value] => .term field value
  | values => .terms field values

def all (must : List Filter) : Filter := .bool must [] []

def any (should : List Filter) : Filter := .bool [] [] should

def within (x : Binary64) (low high : Option Int) : Bool :=
  (match low with | some b => (Binary64.ofInt b).atMost x | none => true) &&
  (match high with | some b => x.atMost (Binary64.ofInt b) | none => true)

mutual

def accepts (fact : Fact) : Filter → Bool
  | .term field value => fact.fieldText? field == some value
  | .terms field values =>
    match fact.fieldText? field with
    | some text => values.contains text
    | none => false
  | .range field low high =>
    match fact.fieldNumber? field with
    | some x => within x low high
    | none => false
  | .present field => fact.present field
  | .starts field text =>
    match fact.fieldText? field with
    | some whole => text.toList.isPrefixOf whole.toList
    | none => false
  | .bool must mustNot should =>
    acceptsAll fact must && !acceptsAny fact mustNot && (should.isEmpty || acceptsAny fact should)

def acceptsAll (fact : Fact) : List Filter → Bool
  | [] => true
  | f :: rest => accepts fact f && acceptsAll fact rest

def acceptsAny (fact : Fact) : List Filter → Bool
  | [] => false
  | f :: rest => accepts fact f || acceptsAny fact rest

end

theorem acceptsAll_eq (fact : Fact) (l : List Filter) : acceptsAll fact l = l.all (accepts fact) := by
  induction l with
  | nil => simp [acceptsAll]
  | cons f rest ih => simp [acceptsAll, ih]

theorem acceptsAny_eq (fact : Fact) (l : List Filter) : acceptsAny fact l = l.any (accepts fact) := by
  induction l with
  | nil => simp [acceptsAny]
  | cons f rest ih => simp [acceptsAny, ih]

end Filter

end RegionalTables
