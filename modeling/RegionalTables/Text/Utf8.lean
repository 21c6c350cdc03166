/-! UTF-8. Decoding splits bytes into characters and maximal invalid runs, so one reader serves
text that must be valid and text in which an invalid run stands for the replacement character. -/
namespace RegionalTables.Text.Utf8

def encodeChar (c : Char) : List UInt8 :=
  let n := c.toNat
  if n < 0x80 then [n.toUInt8]
  else if n < 0x800 then [(0xC0 + n / 0x40).toUInt8, (0x80 + n % 0x40).toUInt8]
  else if n < 0x10000 then
    [(0xE0 + n / 0x1000).toUInt8, (0x80 + n / 0x40 % 0x40).toUInt8, (0x80 + n % 0x40).toUInt8]
  else
    [(0xF0 + n / 0x40000).toUInt8, (0x80 + n / 0x1000 % 0x40).toUInt8,
      (0x80 + n / 0x40 % 0x40).toUInt8, (0x80 + n % 0x40).toUInt8]

def encode (cs : List Char) : List UInt8 := cs.flatMap encodeChar

def isTail (b : UInt8) : Bool := 0x80 ≤ b && b ≤ 0xBF

/-- The second bytes a lead byte of three or four bytes admits. They exclude longer forms than
needed, surrogates and code points above 10FFFF. -/
def admits (lead second : UInt8) : Bool :=
  if lead = 0xE0 then 0xA0 ≤ second && second ≤ 0xBF
  else if lead = 0xED then 0x80 ≤ second && second ≤ 0x9F
  else if lead = 0xF0 then 0x90 ≤ second && second ≤ 0xBF
  else if lead = 0xF4 then 0x80 ≤ second && second ≤ 0x8F
  else isTail second

def bits (b : UInt8) (lead : Nat) : Nat := b.toNat - lead

/-- The character that starts with `lead`, or `none` for a maximal invalid run, and the bytes
after it. -/
def next (lead : UInt8) (rest : List UInt8) : Option Char × List UInt8 :=
  if lead < 0x80 then (some (Char.ofNat lead.toNat), rest)
  else if 0xC2 ≤ lead && lead ≤ 0xDF then
    match rest with
    | b :: rest =>
      if isTail b then (some (Char.ofNat (bits lead 0xC0 * 0x40 + bits b 0x80)), rest)
      else (none, b :: rest)
    | [] => (none, [])
  else if 0xE0 ≤ lead && lead ≤ 0xEF then
    match rest with
    | b :: c :: rest =>
      if !admits lead b then (none, b :: c :: rest)
      else if !isTail c then (none, c :: rest)
      else (some (Char.ofNat (bits lead 0xE0 * 0x1000 + bits b 0x80 * 0x40 + bits c 0x80)), rest)
    | [b] => if admits lead b then (none, []) else (none, [b])
    | [] => (none, [])
  else if 0xF0 ≤ lead && lead ≤ 0xF4 then
    match rest with
    | b :: c :: d :: rest =>
      if !admits lead b then (none, b :: c :: d :: rest)
      else if !isTail c then (none, c :: d :: rest)
      else if !isTail d then (none, d :: rest)
      else
        (some (Char.ofNat (bits lead 0xF0 * 0x40000 + bits b 0x80 * 0x1000 + bits c 0x80 * 0x40 +
          bits d 0x80)), rest)
    | [b, c] =>
      if !admits lead b then (none, [b, c]) else if !isTail c then (none, [c]) else (none, [])
    | [b] => if admits lead b then (none, []) else (none, [b])
    | [] => (none, [])
  else (none, rest)

/-- Every step takes at least the lead byte, so `fuel` is never short when it is the length. -/
def decodeFrom (fuel : Nat) (done : List (Option Char)) (bytes : List UInt8) :
    List (Option Char) :=
  match fuel, bytes with
  | fuel + 1, lead :: rest =>
    let (c, rest) := next lead rest
    decodeFrom fuel (c :: done) rest
  | _, _ => done.reverse

/-- Characters, with `none` for each maximal invalid run. -/
def decode (bytes : List UInt8) : List (Option Char) := decodeFrom bytes.length [] bytes

def decodeLossy (bytes : List UInt8) : List Char := (decode bytes).map (·.getD '\uFFFD')

def lossyText (bytes : List UInt8) : String := String.ofList (decodeLossy bytes)

/-- The text of valid bytes. -/
def decode? (bytes : List UInt8) : Option (List Char) :=
  let units := decode bytes
  if units.all Option.isSome then some (units.filterMap id) else none

end RegionalTables.Text.Utf8
