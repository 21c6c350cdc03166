import RegionalTables.Decimal
import RegionalTables.Toml.Item

/-! TOML numbers, times and truth values, each of which is one word. -/
namespace RegionalTables.Toml

def isDigit (c : Char) : Bool := '0' ≤ c && c ≤ '9'

def isHexDigit (c : Char) : Bool := isDigit c || 'a' ≤ c && c ≤ 'f' || 'A' ≤ c && c ≤ 'F'

def isWordChar (c : Char) : Bool :=
  isDigit c || 'a' ≤ c && c ≤ 'z' || 'A' ≤ c && c ≤ 'Z' || "+-._:".toList.contains c

/-- Digits, with single underscores between them. -/
def isGrouped (digit : Char → Bool) : List Char → Bool
  | [] => false
  | [c] => digit c
  | c :: '_' :: rest => digit c && isGrouped digit rest
  | c :: rest => digit c && isGrouped digit rest

def unsigned : List Char → List Char
  | '+' :: rest => rest
  | '-' :: rest => rest
  | cs => cs

def isWhole (cs : List Char) : Bool := isGrouped isDigit cs && (cs.head? != some '0' || cs == ['0'])

/-- The number that digits stand for, whatever is between them. -/
def numberIn (base : Nat) (cs : List Char) : Nat :=
  (cs.filter isHexDigit).foldl (fun n c =>
    let digit := if isDigit c then c.toNat - 0x30
      else if 'a' ≤ c then c.toNat - 0x57 else c.toNat - 0x37
    n * base + digit) 0

def grouped? (digit : Char → Bool) (base : Nat) (cs : List Char) : Option Int :=
  if isGrouped digit cs then some (numberIn base cs) else none

def integer? : List Char → Option Int
  | '0' :: 'x' :: rest => grouped? isHexDigit 16 rest
  | '0' :: 'o' :: rest => grouped? (fun c => '0' ≤ c && c ≤ '7') 8 rest
  | '0' :: 'b' :: rest => grouped? (fun c => c == '0' || c == '1') 2 rest
  | cs =>
    if isWhole (unsigned cs) then
      let n : Int := numberIn 10 cs
      some (if cs.head? = some '-' then -n else n)
    else none

/-- Whether a reader of whole numbers has room for one. -/
def isReadableInteger (n : Int) : Bool :=
  -0x80000000000000000000000000000000 ≤ n && n < 0x100000000000000000000000000000000

def isMantissa (cs : List Char) : Bool :=
  let fraction := cs.dropWhile (· != '.')
  isWhole (cs.takeWhile (· != '.')) && (fraction.isEmpty || isGrouped isDigit (fraction.drop 1))

def isNamedFloat (cs : List Char) : Bool :=
  let cs := unsigned cs
  cs == "inf".toList || cs == "nan".toList

def isFloat (cs : List Char) : Bool :=
  let cs := unsigned cs
  let mark (c : Char) : Bool := c == 'e' || c == 'E'
  let power := cs.dropWhile fun c => !mark c
  isMantissa (cs.takeWhile fun c => !mark c) &&
    (power.isEmpty || isGrouped isDigit (unsigned (power.drop 1)))

/-- A number in digits must not be beyond the largest double. -/
def isReadableFloat (cs : List Char) : Bool :=
  (Binary64.ofText? (String.ofList (cs.filter (· != '_')))).any Binary64.isFinite

/-- The number that exactly two digits stand for, if it is within the bounds. -/
def isTwoDigits (low high : Nat) : List Char → Bool
  | [a, b] =>
    let n := Nat.ofDigitChars 10 [a, b] 0
    isDigit a && isDigit b && low ≤ n && n ≤ high
  | _ => false

def isLeapYear (year : Nat) : Bool := year % 4 == 0 && (year % 100 != 0 || year % 400 == 0)

def daysIn (year month : Nat) : Nat :=
  if month = 2 then (if isLeapYear year then 29 else 28)
  else if month = 4 ∨ month = 6 ∨ month = 9 ∨ month = 11 then 30 else 31

def isDate : List Char → Bool
  | [a, b, c, d, '-', e, f, '-', g, h] =>
    [a, b, c, d].all isDigit && isTwoDigits 1 12 [e, f] &&
      isTwoDigits 1 (daysIn (Nat.ofDigitChars 10 [a, b, c, d] 0) (Nat.ofDigitChars 10 [e, f] 0)) [g, h]
  | _ => false

def isFraction : List Char → Bool
  | [] => true
  | '.' :: digits => !digits.isEmpty && digits.all isDigit
  | _ => false

/-- Seconds may be left out, and a fraction with them. -/
def isSeconds : List Char → Bool
  | [] => true
  | ':' :: a :: b :: rest => isTwoDigits 0 60 [a, b] && isFraction rest
  | _ => false

def isTime : List Char → Bool
  | a :: b :: ':' :: c :: d :: rest =>
    isTwoDigits 0 23 [a, b] && isTwoDigits 0 59 [c, d] && isSeconds rest
  | _ => false

def isOffset : List Char → Bool
  | [] => true
  | [z] => z == 'Z' || z == 'z'
  | [sign, a, b, ':', c, d] =>
    (sign == '+' || sign == '-') && isTwoDigits 0 23 [a, b] && isTwoDigits 0 59 [c, d]
  | _ => false

def isOffsetMark (c : Char) : Bool := c == 'Z' || c == 'z' || c == '+' || c == '-'

def isDateTime (cs : List Char) : Bool :=
  isDate (cs.take 10) &&
    match cs.drop 10 with
    | [] => true
    | t :: rest =>
      (t == 'T' || t == 't') && isTime (rest.takeWhile fun c => !isOffsetMark c) &&
        isOffset (rest.dropWhile fun c => !isOffsetMark c)

/-- The value a word stands for. -/
def scalar? (word : List Char) : Option Item :=
  if word = "true".toList then some (.bool true)
  else if word = "false".toList then some (.bool false)
  else
    match integer? word with
    | some n => some (.number (isReadableInteger n))
    | none =>
      if isNamedFloat word then some (.number true)
      else if isFloat word then some (.number (isReadableFloat word))
      else if isDateTime word || isTime word then some .time
      else none

/-- A word and the rest of the text. A date and the time after it may be set apart by a space. -/
def takeWord (cs : List Char) : List Char × List Char :=
  let word := cs.takeWhile isWordChar
  let rest := cs.dropWhile isWordChar
  match rest with
  | ' ' :: c :: more =>
    if isDate word && isDigit c then
      (word ++ 'T' :: (c :: more).takeWhile isWordChar, (c :: more).dropWhile isWordChar)
    else (word, rest)
  | _ => (word, rest)

end RegionalTables.Toml
