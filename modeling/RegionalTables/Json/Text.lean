import RegionalTables.Json.Document

/-! JSON text of values: compact, or laid out on lines with two spaces for each level. -/
namespace RegionalTables.Json

def hexDigit (n : Nat) : Char := Nat.digitChar n

/-- Quotes, backslashes and control characters are escaped, by a letter where there is one. -/
def escapeChar (c : Char) : List Char :=
  if c = '"' then ['\\', '"']
  else if c = '\\' then ['\\', '\\']
  else if c = '\x08' then ['\\', 'b']
  else if c = '\x0c' then ['\\', 'f']
  else if c = '\n' then ['\\', 'n']
  else if c = '\r' then ['\\', 'r']
  else if c = '\t' then ['\\', 't']
  else if c.toNat < 0x20 then ['\\', 'u', '0', '0', hexDigit (c.toNat / 16), hexDigit (c.toNat % 16)]
  else [c]

def quoted (s : String) : List Char := '"' :: s.toList.flatMap escapeChar ++ ['"']

def integerChars (n : Int) : List Char :=
  if n < 0 then '-' :: Nat.toDigits 10 n.natAbs else Nat.toDigits 10 n.natAbs

/-- A number that is not finite has no JSON form and is written as `null`. -/
def Number.chars : Number → List Char
  | .integer n => integerChars n
  | .float x => if x.isFinite then NumberStyle.document.chars x else ['n', 'u', 'l', 'l']

def Number.text (n : Number) : String := String.ofList n.chars

namespace Value

mutual

def chars : Value → List Char
  | .null => ['n', 'u', 'l', 'l']
  | .bool true => ['t', 'r', 'u', 'e']
  | .bool false => ['f', 'a', 'l', 's', 'e']
  | .number n => n.chars
  | .string s => quoted s
  | .array [] => ['[', ']']
  | .array (v :: rest) => '[' :: chars v ++ itemsTail rest
  | .object [] => ['{', '}']
  | .object ((k, v) :: rest) => '{' :: quoted k ++ ':' :: chars v ++ membersTail rest

def itemsTail : List Value → List Char
  | [] => [']']
  | v :: rest => ',' :: chars v ++ itemsTail rest

def membersTail : List (String × Value) → List Char
  | [] => ['}']
  | (k, v) :: rest => ',' :: quoted k ++ ':' :: chars v ++ membersTail rest

end

/-- Compact text. -/
def text (v : Value) : String := String.ofList v.chars

def newline (level : Nat) : List Char := '\n' :: List.replicate (2 * level) ' '

mutual

def linesAt (level : Nat) : Value → List Char
  | .array [] => ['[', ']']
  | .array (v :: rest) =>
    '[' :: newline (level + 1) ++ linesAt (level + 1) v ++ itemLines (level + 1) rest ++
      newline level ++ [']']
  | .object [] => ['{', '}']
  | .object ((k, v) :: rest) =>
    '{' :: newline (level + 1) ++ quoted k ++ ':' :: ' ' :: linesAt (level + 1) v ++
      memberLines (level + 1) rest ++ newline level ++ ['}']
  | .null => ['n', 'u', 'l', 'l']
  | .bool true => ['t', 'r', 'u', 'e']
  | .bool false => ['f', 'a', 'l', 's', 'e']
  | .number n => n.chars
  | .string s => quoted s

def itemLines (level : Nat) : List Value → List Char
  | [] => []
  | v :: rest => ',' :: newline level ++ linesAt level v ++ itemLines level rest

def memberLines (level : Nat) : List (String × Value) → List Char
  | [] => []
  | (k, v) :: rest =>
    ',' :: newline level ++ quoted k ++ ':' :: ' ' :: linesAt level v ++ memberLines level rest

end

/-- Text laid out on lines, without one at the end. -/
def prettyText (v : Value) : String := String.ofList (linesAt 0 v)

end Value

def Document.text (d : Document) : String := d.value.text

end RegionalTables.Json
