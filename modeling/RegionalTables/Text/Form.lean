import RegionalTables.Text.Percent
import RegionalTables.Text.Split
import RegionalTables.Text.Utf8

/-! The form encoding of query strings: pairs joined by `&`, a space as `+`, and every byte outside
a few safe characters as `%` and two hexadecimal digits. -/
namespace RegionalTables.Text.Form

def plusToSpace (b : UInt8) : UInt8 := if b = 0x2B then 0x20 else b

def unescape (bytes : List UInt8) : List UInt8 := Percent.decode (bytes.map plusToSpace)

def decodeText (cs : List Char) : String :=
  Utf8.lossyText (unescape (Utf8.encode cs))

def decodePair (segment : List Char) : String × String :=
  let (name, value) := (cut? '=' segment).getD (segment, [])
  (decodeText name, decodeText value)

/-- The pairs of a query string in order; empty segments hold none. -/
def decode (cs : List Char) : List (String × String) :=
  ((split '&' cs).filter (!·.isEmpty)).map decodePair

def isSafe (b : UInt8) : Bool :=
  0x30 ≤ b && b ≤ 0x39 || 0x41 ≤ b && b ≤ 0x5A || 0x61 ≤ b && b ≤ 0x7A ||
    b = 0x2A || b = 0x2D || b = 0x2E || b = 0x5F

def escapeByte (b : UInt8) : List Char :=
  if isSafe b then [Char.ofNat b.toNat]
  else if b = 0x20 then ['+']
  else Percent.escape b

def encodeText (s : String) : List Char := (Utf8.encode s.toList).flatMap escapeByte

/-- The query string of a list of pairs. -/
def encode (pairs : List (String × String)) : List Char :=
  ['&'].intercalate (pairs.map fun p => encodeText p.1 ++ '=' :: encodeText p.2)

end RegionalTables.Text.Form
