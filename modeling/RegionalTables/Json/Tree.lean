import RegionalTables.Json.Value

/-! Reading JSON text into the tree of what is written: members in order with repeated keys, and
`none` for a string or number that is well formed but denotes nothing. Such a leaf is harmless in
a part of the document nobody asks for. -/
namespace RegionalTables.Json

inductive Tree where
  | null
  | bool (b : Bool)
  /-- `none` is a number beyond the largest double. -/
  | number (n : Option Number)
  /-- `none` is a string with half of a surrogate pair. -/
  | string (s : Option String)
  | array (items : List Tree)
  | object (members : List (Option String × Tree))

namespace Tree

def isSpace (c : Char) : Bool := c = ' ' || c = '\n' || c = '\t' || c = '\r'

def skip (cs : List Char) : List Char := cs.dropWhile isSpace

def hexValue? (c : Char) : Option Nat :=
  if '0' ≤ c ∧ c ≤ '9' then some (c.toNat - 0x30)
  else if 'a' ≤ c ∧ c ≤ 'f' then some (c.toNat - 0x57)
  else if 'A' ≤ c ∧ c ≤ 'F' then some (c.toNat - 0x37)
  else none

def hex4? : List Char → Option (Nat × List Char)
  | a :: b :: c :: d :: rest => do
    let n := (((← hexValue? a) * 16 + (← hexValue? b)) * 16 + (← hexValue? c)) * 16 + (← hexValue? d)
    return (n, rest)
  | _ => none

def isHighSurrogate (n : Nat) : Bool := 0xD800 ≤ n && n ≤ 0xDBFF
def isLowSurrogate (n : Nat) : Bool := 0xDC00 ≤ n && n ≤ 0xDFFF

/-- The character of a code unit escape and of the low surrogate escape that may complete it. -/
def escapedUnit (n : Nat) (rest : List Char) : Option Char × List Char :=
  if isLowSurrogate n then (none, rest)
  else if isHighSurrogate n then
    match rest with
    | '\\' :: 'u' :: tail =>
      match hex4? tail with
      | some (low, after) =>
        if isLowSurrogate low then
          (some (Char.ofNat (0x10000 + (n - 0xD800) * 0x400 + (low - 0xDC00))), after)
        else (none, rest)
      | none => (none, rest)
    | _ => (none, rest)
  else (some (Char.ofNat n), rest)

/-- The rest of an escape after its backslash. -/
def escaped? : List Char → Option (Option Char × List Char)
  | '"' :: rest => some (some '"', rest)
  | '\\' :: rest => some (some '\\', rest)
  | '/' :: rest => some (some '/', rest)
  | 'b' :: rest => some (some '\x08', rest)
  | 'f' :: rest => some (some '\x0c', rest)
  | 'n' :: rest => some (some '\n', rest)
  | 'r' :: rest => some (some '\r', rest)
  | 't' :: rest => some (some '\t', rest)
  | 'u' :: rest => (hex4? rest).map fun (n, rest) => escapedUnit n rest
  | _ => none

/-- The rest of a string after its opening quote. `done` holds its characters in reverse, and is
`none` once one of them denotes nothing. A character takes one unit of `fuel`. -/
def stringTail (fuel : Nat) (done : Option (List Char)) (cs : List Char) :
    Option (Option String × List Char) :=
  match fuel, cs with
  | _, '"' :: rest => some (done.map fun l => String.ofList l.reverse, rest)
  | fuel + 1, '\\' :: rest =>
    match escaped? rest with
    | some (c, rest) => stringTail fuel (do return (← c) :: (← done)) rest
    | none => none
  | fuel + 1, c :: rest =>
    if c.toNat < 0x20 then none else stringTail fuel (done.map (c :: ·)) rest
  | _, _ => none

/-- Whole digits without a superfluous leading zero. -/
def wholeDigits? (cs : List Char) : Option (List Char × List Char) :=
  let digits := cs.takeWhile Binary64.isDigit
  if digits.isEmpty || (digits.headD ' ' == '0' && 1 < digits.length) then none
  else some (digits, cs.drop digits.length)

/-- The digits after a point; there may be no point. -/
def fraction? : List Char → Option (Option (List Char) × List Char)
  | '.' :: rest =>
    let digits := rest.takeWhile Binary64.isDigit
    if digits.isEmpty then none else some (some digits, rest.drop digits.length)
  | rest => some (none, rest)

def power? (cs : List Char) : Option (Option Int × List Char) :=
  match cs with
  | e :: rest =>
    if e = 'e' ∨ e = 'E' then
      let (negative, rest) := match rest with
        | '-' :: rest => (true, rest)
        | '+' :: rest => (false, rest)
        | rest => (false, rest)
      let digits := rest.takeWhile Binary64.isDigit
      if digits.isEmpty then none
      else
        let n : Int := (Nat.ofDigitChars 10 digits 0 : Nat)
        some (some (if negative then -n else n), rest.drop digits.length)
    else some (none, cs)
  | [] => some (none, cs)

def finite? (x : Binary64) : Option Number := if x.isFinite then some (.float x) else none

/-- What a number denotes. One without point and exponent is an integer where 64 bits hold it;
`-0` is a double. -/
def denoted (negative : Bool) (whole : List Char) (fraction : Option (List Char))
    (power : Option Int) : Option Number :=
  let n := Nat.ofDigitChars 10 whole 0
  if fraction.isNone && power.isNone && !negative && n < 0x10000000000000000 then some (.integer n)
  else if fraction.isNone && power.isNone && negative && 0 < n && n ≤ 0x8000000000000000 then
    some (.integer (-n))
  else finite? (.ofDecimal negative (.ofDigits whole (fraction.getD []) (power.getD 0)))

def readNumber (cs : List Char) : Option (Option Number × List Char) := do
  let (negative, cs) := match cs with
    | '-' :: rest => (true, rest)
    | cs => (false, cs)
  let (whole, cs) ← wholeDigits? cs
  let (fraction, cs) ← fraction? cs
  let (power, cs) ← power? cs
  return (denoted negative whole fraction power, cs)

mutual

def readValue (fuel : Nat) (cs : List Char) : Option (Tree × List Char) :=
  match fuel with
  | 0 => none
  | fuel + 1 =>
    match skip cs with
    | 'n' :: 'u' :: 'l' :: 'l' :: rest => some (.null, rest)
    | 't' :: 'r' :: 'u' :: 'e' :: rest => some (.bool true, rest)
    | 'f' :: 'a' :: 'l' :: 's' :: 'e' :: rest => some (.bool false, rest)
    | '"' :: rest => (stringTail fuel (some []) rest).map fun (s, rest) => (.string s, rest)
    | '[' :: rest =>
      match skip rest with
      | ']' :: rest => some (.array [], rest)
      | _ => readItems fuel [] rest
    | '{' :: rest =>
      match skip rest with
      | '}' :: rest => some (.object [], rest)
      | _ => readMembers fuel [] rest
    | cs => (readNumber cs).map fun (n, rest) => (.number n, rest)

/-- Items up to the closing bracket; `done` holds the earlier ones in reverse. -/
def readItems (fuel : Nat) (done : List Tree) (cs : List Char) : Option (Tree × List Char) :=
  match fuel with
  | 0 => none
  | fuel + 1 =>
    match readValue fuel cs with
    | none => none
    | some (v, rest) =>
      match skip rest with
      | ',' :: rest => readItems fuel (v :: done) rest
      | ']' :: rest => some (.array (v :: done).reverse, rest)
      | _ => none

def readMembers (fuel : Nat) (done : List (Option String × Tree)) (cs : List Char) :
    Option (Tree × List Char) :=
  match fuel with
  | 0 => none
  | fuel + 1 =>
    match skip cs with
    | '"' :: rest =>
      match stringTail fuel (some []) rest with
      | none => none
      | some (key, rest) =>
        match skip rest with
        | ':' :: rest =>
          match readValue fuel rest with
          | none => none
          | some (v, rest) =>
            match skip rest with
            | ',' :: rest => readMembers fuel ((key, v) :: done) rest
            | '}' :: rest => some (.object ((key, v) :: done).reverse, rest)
            | _ => none
        | _ => none
    | _ => none

end

/-- The tree of a whole text. Each step of the reader takes a character or enters a value, so twice
the length is fuel enough for all of them. -/
def read? (cs : List Char) : Option Tree :=
  match readValue (2 * cs.length + 1) cs with
  | some (t, rest) => if (skip rest).isEmpty then some t else none
  | none => none

mutual

/-- The number of arrays and objects around the innermost part. -/
def depth : Tree → Nat
  | .array items => itemsDepth items + 1
  | .object members => membersDepth members + 1
  | _ => 0

def itemsDepth : List Tree → Nat
  | [] => 0
  | t :: rest => max (depth t) (itemsDepth rest)

def membersDepth : List (Option String × Tree) → Nat
  | [] => 0
  | (_, t) :: rest => max (depth t) (membersDepth rest)

end

mutual

def ofValue : Value → Tree
  | .null => .null
  | .bool b => .bool b
  | .number n => .number (some n)
  | .string s => .string (some s)
  | .array items => .array (ofItems items)
  | .object members => .object (ofMembers members)

def ofItems : List Value → List Tree
  | [] => []
  | v :: rest => ofValue v :: ofItems rest

def ofMembers : List (String × Value) → List (Option String × Tree)
  | [] => []
  | (k, v) :: rest => (some k, ofValue v) :: ofMembers rest

end

end Tree

end RegionalTables.Json
