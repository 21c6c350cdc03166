/-! Percent escapes: a `%` and two hexadecimal digits for a byte. -/
namespace RegionalTables.Text.Percent

def hexValue? (b : UInt8) : Option UInt8 :=
  if 0x30 ≤ b && b ≤ 0x39 then some (b - 0x30)
  else if 0x41 ≤ b && b ≤ 0x46 then some (b - 0x37)
  else if 0x61 ≤ b && b ≤ 0x66 then some (b - 0x57)
  else none

def hexDigit (n : UInt8) : Char := Char.ofNat (if n < 10 then 0x30 + n.toNat else 0x37 + n.toNat)

def escape (b : UInt8) : List Char := ['%', hexDigit (b / 16), hexDigit (b % 16)]

/-- A `%` without two hexadecimal digits after it stands for itself. -/
def decode : List UInt8 → List UInt8
  | a :: b :: c :: rest =>
    if a = 0x25 then
      match hexValue? b, hexValue? c with
      | some high, some low => (high * 16 + low) :: decode rest
      | _, _ => a :: decode (b :: c :: rest)
    else a :: decode (b :: c :: rest)
  | bytes => bytes

end RegionalTables.Text.Percent
