import RegionalTables.Text.Alphanumeric

/-! Variables in text: `${NAME}` and `$NAME` stand for values of an environment. Values are inserted
as they are. -/
namespace RegionalTables

abbrev Environment := String → Option String

namespace Environment

/-- The environment of variables and their values. It is kept as texts `NAME=value`, and a name has
for its value what follows the name and a `=` in the first text that starts so. A name may thus
reach into a value. -/
def ofVariables (assigned : List (String × String)) : Environment := fun name =>
  if name = "" ∨ '\x00' ∈ name.toList then none
  else assigned.findSome? fun (n, value) =>
    (List.isPrefixOf? (name ++ "=").toList (n ++ "=" ++ value).toList).map String.ofList

inductive Piece where
  | plain (c : Char)
  | reference (name : List Char)
  deriving DecidableEq

def isNameChar (c : Char) : Bool := Text.isAlphanumeric c || c == '_'

def beforeBrace (cs : List Char) : List Char := cs.takeWhile (· != '}')

/-- The text after a closing brace, which may be left out at the very end. -/
def afterBrace (cs : List Char) : List Char := (cs.dropWhile (· != '}')).drop 1

theorem length_afterBrace (cs : List Char) : (afterBrace cs).length ≤ cs.length := by
  have := (List.dropWhile_sublist (l := cs) (· != '}')).length_le
  simp only [afterBrace, List.length_drop]
  omega

/-- A dollar sign before neither a brace nor a name is plain. -/
def pieces : List Char → List Piece
  | [] => []
  | '$' :: '{' :: rest => .reference (beforeBrace rest) :: pieces (afterBrace rest)
  | c :: rest =>
    if c = '$' ∧ rest.takeWhile isNameChar ≠ [] then
      .reference (rest.takeWhile isNameChar) :: pieces (rest.dropWhile isNameChar)
    else .plain c :: pieces rest
termination_by cs => cs.length
decreasing_by
  · have := length_afterBrace rest
    simp only [List.length_cons]
    omega
  · have := (List.dropWhile_sublist (l := rest) isNameChar).length_le
    simp only [List.length_cons]
    omega
  · simp

/-- The text of a piece, or the name that has no value. -/
def value (env : Environment) : Piece → Except String (List Char)
  | .plain c => .ok [c]
  | .reference name =>
    match env (String.ofList name) with
    | some text => .ok text.toList
    | none => .error (String.ofList name)

/-- Puts values for all references, or gives the first name that has none. -/
def expand (env : Environment) (text : String) : Except String String := do
  return String.ofList (← (pieces text.toList).mapM env.value).flatten

end Environment

end RegionalTables
