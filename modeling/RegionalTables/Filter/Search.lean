import RegionalTables.Filter.Basic

/-! The JSON form in which a document store takes a filter. Empty groups are left out, and a group
of alternatives beside required clauses says that one of it must match. -/
namespace RegionalTables.Filter

open Json

def bounds (low high : Option Int) : List (String × Value) :=
  (low.map fun n => ("gte", Value.integer n)).toList ++
    (high.map fun n => ("lte", Value.integer n)).toList

def group (name : String) (clauses : List Value) : List (String × Value) :=
  if clauses.isEmpty then [] else [(name, .array clauses)]

mutual

def search : Filter → Value
  | .term field value => .object [("term", .object [(field, .string value)])]
  | .terms field values => .object [("terms", .object [(field, .strings values)])]
  | .range field low high => .object [("range", .object [(field, .object (bounds low high))])]
  | .present field => .object [("exists", .object [("field", .string field)])]
  | .starts field text => .object [("prefix", .object [(field, .string text)])]
  | .bool must mustNot should =>
    let needed : List (String × Value) :=
      if must.isEmpty || should.isEmpty then [] else [("minimum_should_match", .integer 1)]
    .object [("bool", .object (needed ++ group "must" (searchList must) ++
      group "must_not" (searchList mustNot) ++ group "should" (searchList should)))]

def searchList : List Filter → List Value
  | [] => []
  | f :: rest => search f :: searchList rest

end

/-- The body of a search request. -/
def body (f : Filter) : Value :=
  .object [("query", .object [("constant_score", .object [("filter", f.search)])])]

end RegionalTables.Filter
