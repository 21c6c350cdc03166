import RegionalTables.Query.Rejection
import RegionalTables.Query.Selection
import RegionalTables.Text.Split

/-! Data entries, the written form of a selection: `statistic:measure`, optionally followed by
dimensions in parentheses, each alone or with the values asked for. -/
namespace RegionalTables

structure Entry where
  statistic : String
  measure : String
  parts : List (String × List String)
  deriving DecidableEq

namespace Entry

def isTokenChar (c : Char) : Bool :=
  'A' ≤ c && c ≤ 'Z' || 'a' ≤ c && c ≤ 'z' || '0' ≤ c && c ≤ '9' || c = '_' || c = '.' || c = '-'

/-- Letters, digits, underscores, dots and hyphens. -/
theorem isTokenChar_iff {c : Char} :
    isTokenChar c = true ↔ c.isAlpha = true ∨ c.isDigit = true ∨ c = '_' ∨ c = '.' ∨ c = '-' := by
  have letter : c.isAlpha = (c.isUpper || c.isLower) := rfl
  have upper : c.isUpper = true ↔ 'A' ≤ c ∧ c ≤ 'Z' := decide_eq_true_iff
  have lower : c.isLower = ('a' ≤ c && c ≤ 'z') := rfl
  have digit : c.isDigit = ('0' ≤ c && c ≤ '9') := rfl
  simp only [isTokenChar, letter, upper, lower, digit, Bool.or_eq_true, Bool.and_eq_true,
    decide_eq_true_eq, or_assoc]

def isToken (cs : List Char) : Bool := !cs.isEmpty && cs.all isTokenChar

/-- A dimension, with a colon and its values if any are given. -/
def part? (cs : List Char) : Option (String × List String) :=
  let (dimension, values) := match Text.cut? ':' cs with
    | some (dimension, values) => (dimension, Text.split '|' values)
    | none => (cs, [])
  if isToken dimension && values.all isToken then
    some (String.ofList dimension, values.map String.ofList)
  else none

/-- The text between an opening parenthesis and the closing one at the end. -/
def inner? : List Char → Option (List Char)
  | '(' :: rest =>
    let body := rest.takeWhile fun c => c != '(' && c != ')'
    if !body.isEmpty && rest.drop body.length == [')'] then some body else none
  | _ => none

def ofChars? (cs : List Char) : Option Entry := do
  let (statistic, rest) ← Text.cut? ':' cs
  let measure := rest.takeWhile isTokenChar
  let tail := rest.drop measure.length
  if !isToken statistic || !isToken measure then none
  else
    let parts ← if tail.isEmpty then some [] else do
      (Text.split ',' (← inner? tail)).mapM part?
    return ⟨String.ofList statistic, String.ofList measure, parts⟩

def read (text : String) : Except Rejection Entry :=
  match ofChars? text.toList with
  | some e => .ok e
  | none => .error (.malformedEntry text)

/-- The entries of a data value, split at the commas outside parentheses. A closing parenthesis
without an opening one counts for nothing. -/
def splitFrom (nesting : Nat) : List Char → List (List Char)
  | [] => [[]]
  | c :: rest =>
    if c = ',' ∧ nesting = 0 then [] :: splitFrom 0 rest
    else
      let nesting := if c = '(' then nesting + 1 else if c = ')' then nesting - 1 else nesting
      match splitFrom nesting rest with
      | piece :: pieces => (c :: piece) :: pieces
      | [] => [[c]]

def split (text : String) : List String := (splitFrom 0 text.toList).map String.ofList

end Entry

namespace Selection

def addEntry (s : Selection) (e : Entry) : Selection := s.insert e.statistic e.measure e.parts

/-- The merge of all entries, or the first malformed one. -/
def ofEntries (texts : List String) : Except Rejection Selection :=
  texts.foldlM (fun s text => do return s.addEntry (← Entry.read text)) empty

end Selection

end RegionalTables
