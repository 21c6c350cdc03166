/-! Base64 with the standard alphabet and padding. The reader takes canonical text only: full
groups of four, padding at the very end, and no set bits that no byte holds. -/
namespace RegionalTables.Base64

def symbol (n : Nat) : Char :=
  if n < 26 then Char.ofNat (0x41 + n)
  else if n < 52 then Char.ofNat (0x61 + (n - 26))
  else if n < 62 then Char.ofNat (0x30 + (n - 52))
  else if n = 62 then '+' else '/'

def sextet? (c : Char) : Option Nat :=
  let n := c.toNat
  if 0x41 ≤ n ∧ n ≤ 0x5A then some (n - 0x41)
  else if 0x61 ≤ n ∧ n ≤ 0x7A then some (n - 0x61 + 26)
  else if 0x30 ≤ n ∧ n ≤ 0x39 then some (n - 0x30 + 52)
  else if c = '+' then some 62
  else if c = '/' then some 63
  else none

def group (a b c : UInt8) : List Char :=
  let n := a.toNat * 0x10000 + b.toNat * 0x100 + c.toNat
  [symbol (n / 0x40000), symbol (n / 0x1000 % 0x40), symbol (n / 0x40 % 0x40), symbol (n % 0x40)]

/-- `done` holds the symbols so far in reverse. -/
def encodeFrom (done : List Char) : List UInt8 → List Char
  | [] => done.reverse
  | [a] => done.reverse ++ ((group a 0 0).take 2 ++ ['=', '='])
  | [a, b] => done.reverse ++ ((group a b 0).take 3 ++ ['='])
  | a :: b :: c :: rest => encodeFrom ((group a b c).reverse ++ done) rest

def encode (bytes : List UInt8) : List Char := encodeFrom [] bytes

def bytesOf (count n : Nat) : List UInt8 :=
  [(n / 0x10000).toUInt8, (n / 0x100 % 0x100).toUInt8, (n % 0x100).toUInt8].take count

def number? (cs : List Char) : Option Nat :=
  cs.foldl (fun n c => do return (← n) * 0x40 + (← sextet? c)) (some 0)

def decodeFrom? (done : List UInt8) : List Char → Option (List UInt8)
  | [] => some done.reverse
  | [a, b, '=', '='] => do
    let n ← number? [a, b]
    if n % 0x10 = 0 then some (done.reverse ++ bytesOf 1 (n * 0x1000)) else none
  | [a, b, c, '='] => do
    let n ← number? [a, b, c]
    if n % 0x4 = 0 then some (done.reverse ++ bytesOf 2 (n * 0x40)) else none
  | a :: b :: c :: d :: rest => do
    let n ← number? [a, b, c, d]
    decodeFrom? ((bytesOf 3 n).reverse ++ done) rest
  | _ => none

def decode? (cs : List Char) : Option (List UInt8) := decodeFrom? [] cs

end RegionalTables.Base64
