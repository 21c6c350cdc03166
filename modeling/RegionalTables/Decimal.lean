import RegionalTables.Binary64

/-! Doubles as decimal text, both ways. A written number has the fewest digits that read back as
the same double, and of those the ones nearest to it; `NumberStyle` holds what is left to choose. -/
namespace RegionalTables

/-- The number `coefficient * 10 ^ exponent`. -/
structure Decimal where
  coefficient : Nat
  exponent : Int
  deriving DecidableEq

namespace Decimal

open Binary64

/-- The rank nearest to a decimal. Exponents beyond all doubles are settled before any power. -/
def rank (d : Decimal) : Nat :=
  if d.coefficient = 0 then 0
  else if 400 < d.exponent then infinityRank
  else if d.exponent + (d.coefficient.log2 + 1) < -400 then 0
  else if 0 ≤ d.exponent then nearestRank (d.coefficient * Nat.pow 10 d.exponent.toNat * unit) 1
  else nearestRank (d.coefficient * unit) (Nat.pow 10 (-d.exponent).toNat)

/-- `units rank` at scale `10 ^ exponent`, as numerator and denominator. -/
def scaled (rank : Nat) (exponent : Int) : Nat × Nat :=
  if 0 ≤ exponent then (units rank, unit * Nat.pow 10 exponent.toNat)
  else (units rank * Nat.pow 10 (-exponent).toNat, unit)

/-- The exponent of the leading decimal digit. The estimate from the binary exponent is off by at
most one. -/
def leadingExponent (rank : Nat) : Int :=
  let estimate := (((units rank).log2 : Int) - 1074) * 1233 / 4096
  let reaches (e : Int) : Bool := let (p, q) := scaled rank e; q ≤ p
  if reaches (estimate + 1) then estimate + 1
  else if reaches estimate then estimate
  else estimate - 1

/-- A multiple of `10 ^ exponent` next to the value of `rank` that reads back as `rank`: the
nearer one if both neighbours do, the even one if both are equally near. -/
def neighbour? (rank : Nat) (exponent : Int) : Option Decimal :=
  let (p, q) := scaled rank exponent
  let low := p / q
  let twice := 2 * (p % q)
  let below : Decimal := ⟨low, exponent⟩
  let above : Decimal := ⟨low + 1, exponent⟩
  let preferBelow := twice < q || (twice == q && low % 2 == 0)
  if below.rank = rank then
    if above.rank = rank && !preferBelow then some above else some below
  else if above.rank = rank then some above
  else none

/-- The value of a rank with all its digits. -/
def exact (rank : Nat) : Decimal := ⟨units rank * Nat.pow 5 1074, -1074⟩

/-- The shortest decimal of a positive finite rank. Seventeen digits always suffice. -/
def shortest (rank : Nat) : Decimal :=
  let leading := leadingExponent rank
  ((List.range 17).findSome? fun (more : Nat) => neighbour? rank (leading - more)).getD (exact rank)

/-- The digits of a decimal without the zeros at their end, and the exponent of the last one. -/
def trimmed (d : Decimal) : List Char × Int :=
  let digits := Nat.toDigits 10 d.coefficient
  let kept := (digits.reverse.dropWhile (· == '0')).reverse
  (kept, d.exponent + (digits.length - kept.length : Nat))

/-- Reads whole digits, fraction digits and a power of ten as one number. -/
def ofDigits (whole fraction : List Char) (power : Int) : Decimal :=
  ⟨Nat.ofDigitChars 10 (whole ++ fraction) 0, power - fraction.length⟩

end Decimal

/-- How a double is spelled once its digits are known. -/
structure NumberStyle where
  /-- The point is written in place when at most this many digits precede it. -/
  wholeDigits : Int
  /-- At most this many zeros are written between the point and the first digit. -/
  leadingZeros : Int
  /-- A positive exponent carries a sign. -/
  plus : Bool

namespace NumberStyle

def exponentText (s : NumberStyle) (e : Int) : List Char :=
  'e' :: (if e < 0 then ['-'] else if s.plus then ['+'] else []) ++ Nat.toDigits 10 e.natAbs

/-- `digits` stand for a whole number of `10 ^ exponent`. -/
def positional (s : NumberStyle) (digits : List Char) (exponent : Int) : List Char :=
  let point := digits.length + exponent
  if 0 ≤ exponent ∧ point ≤ s.wholeDigits then
    digits ++ List.replicate exponent.toNat '0' ++ ['.', '0']
  else if 0 < point ∧ point ≤ s.wholeDigits then
    digits.take point.toNat ++ '.' :: digits.drop point.toNat
  else if -s.leadingZeros ≤ point ∧ point ≤ 0 then
    '0' :: '.' :: List.replicate (-point).toNat '0' ++ digits
  else
    match digits with
    | [] => []
    | [d] => d :: s.exponentText (point - 1)
    | d :: rest => d :: '.' :: rest ++ s.exponentText (point - 1)

/-- The text of a finite double. -/
def chars (s : NumberStyle) (x : Binary64) : List Char :=
  let body :=
    if x.rank = 0 then ['0', '.', '0']
    else let (digits, exponent) := (Decimal.shortest x.rank).trimmed; s.positional digits exponent
  if x.negative then '-' :: body else body

def text (s : NumberStyle) (x : Binary64) : String :=
  if x.isNaN then "NaN"
  else if x.isFinite then String.ofList (s.chars x)
  else if x.negative then "-inf" else "inf"

/-- Numbers in a table cell: sixteen places before the point, four zeros after it, bare exponents. -/
def cell : NumberStyle := ⟨16, 4, false⟩

/-- Numbers in a document differ from those in a cell by the sign of a positive exponent. -/
def document : NumberStyle := ⟨16, 4, true⟩

end NumberStyle

namespace Binary64

def ofDecimal (negative : Bool) (d : Decimal) : Binary64 := ofRank negative d.rank

def isDigit (c : Char) : Bool := '0' ≤ c && c ≤ '9'

/-- An exponent mark and its digits, or nothing at all. -/
def exponent? : List Char → Option Int
  | [] => some 0
  | e :: rest =>
    if e = 'e' ∨ e = 'E' then
      let (negative, digits) := match rest with
        | '-' :: digits => (true, digits)
        | '+' :: digits => (false, digits)
        | digits => (false, digits)
      if digits.isEmpty || !digits.all isDigit then none
      else
        let n : Int := (Nat.ofDigitChars 10 digits 0 : Nat)
        some (if negative then -n else n)
    else none

/-- Digits with an optional point and exponent; a digit is needed before or after the point. -/
def unsigned? (cs : List Char) : Option Decimal :=
  let whole := cs.takeWhile isDigit
  let (fraction, rest) := match cs.dropWhile isDigit with
    | '.' :: tail => (tail.takeWhile isDigit, tail.dropWhile isDigit)
    | rest => ([], rest)
  if whole.isEmpty && fraction.isEmpty then none
  else (exponent? rest).map (Decimal.ofDigits whole fraction)

def lower (c : Char) : Char := if 'A' ≤ c ∧ c ≤ 'Z' then Char.ofNat (c.toNat + 32) else c

/-- Reads a number from text: a sign, then digits or a name of infinity or NaN in any case. -/
def ofText? (s : String) : Option Binary64 :=
  let (negative, cs) := match s.toList with
    | '-' :: cs => (true, cs)
    | '+' :: cs => (false, cs)
    | cs => (false, cs)
  match unsigned? cs with
  | some d => some (ofDecimal negative d)
  | none =>
    let name := String.ofList (cs.map lower)
    if name = "inf" ∨ name = "infinity" then some (infinity negative)
    else if name = "nan" then some (nan negative)
    else none

end Binary64

end RegionalTables
