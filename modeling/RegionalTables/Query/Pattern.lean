import RegionalTables.Text.CharClass

/-! Patterns of whole values, made of digits of any script and fixed characters. -/
namespace RegionalTables

inductive Pattern.Piece where
  | digits (count : Nat)
  | someDigits
  | char (c : Char)
  deriving DecidableEq

abbrev Pattern := List Pattern.Piece

namespace Pattern

def Piece.source : Piece → String
  | .digits count => "\\d\x7b" ++ toString count ++ "\x7d"
  | .someDigits => "\\d+"
  | .char c => String.singleton c

/-- The pattern as a regular expression. -/
def source (p : Pattern) : String := "^" ++ String.join (p.map Piece.source) ++ "$"

/-- A run of digits is taken whole. -/
def accepts : Pattern → List Char → Bool
  | [], cs => cs.isEmpty
  | .digits count :: p, cs =>
    (cs.take count).length == count && (cs.take count).all Text.isDecimalDigit &&
      accepts p (cs.drop count)
  | .someDigits :: p, cs =>
    let run := cs.takeWhile Text.isDecimalDigit
    !run.isEmpty && accepts p (cs.drop run.length)
  | .char _ :: _, [] => false
  | .char c :: p, d :: cs => c == d && accepts p cs

end Pattern

end RegionalTables
