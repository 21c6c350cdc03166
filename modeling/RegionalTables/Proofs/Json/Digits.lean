import Mathlib.Data.List.TakeWhile
import RegionalTables.Fact
import RegionalTables.Proofs.Json.Number
import RegionalTables.Proofs.Text.Order

/-! Numbers of digits alone. A fact may hold a year as a number or as text; where it is shown as
digits, it is compared as the number that the digits write. -/
namespace RegionalTables

namespace Binary64

theorem ofDecimal_whole (n : Nat) : ofDecimal false ⟨n, 0⟩ = ofInt n := by
  have sign : decide ((n : Int) < 0) = false := decide_eq_false (by omega)
  rw [ofDecimal, ofInt, sign, Decimal.rank_eq]
  simp

/-- Digits alone are read as the whole number they write. -/
theorem ofText?_of_digits {length : Nat} {s : String} (nonempty : 0 < length)
    (digits : Text.Digits length s) : ofText? s = some (ofInt (Text.decimal s)) := by
  have each : ∀ c ∈ s.toList, isDigit c = true := fun c member =>
    Decimal.isDigit_of_digit (digits.digits c member)
  have whole : s.toList.takeWhile isDigit = s.toList := List.takeWhile_eq_self_iff.2 each
  have rest : s.toList.dropWhile isDigit = [] := List.dropWhile_eq_nil_iff.2 each
  have unsigned : unsigned? s.toList = some ⟨Text.decimal s, 0⟩ := by
    have some : s.toList.isEmpty = false := by
      rw [List.isEmpty_eq_false_iff, ← List.length_pos_iff, digits.length]
      exact nonempty
    simp [unsigned?, whole, rest, some, exponent?, Decimal.ofDigits, Text.decimal]
  unfold ofText?
  split
  next negative cs read =>
  have signless : (false, s.toList) = (negative, cs) := by
    rw [← read]
    split
    · next minus => exact absurd (each '-' (by simp [minus])) (by decide)
    · next plus => exact absurd (each '+' (by simp [plus])) (by decide)
    · rfl
  cases signless
  simp only [unsigned, ofDecimal_whole]

end Binary64

namespace Json

/-- The text of a double has a point, an exponent or letters. -/
theorem not_digits_float (x : Binary64) : ∃ c ∈ (Number.float x).chars, c.isDigit = false := by
  rw [Number.chars]
  split
  · next finite =>
    obtain ⟨n, writes, chars⟩ := exists_writes .document finite
    rw [chars, Numeral.chars]
    obtain fraction | power := writes.inexact
    · obtain ⟨digits, some⟩ := Option.isSome_iff_exists.1 fraction
      exact ⟨'.', by simp [some], by decide⟩
    · obtain ⟨e, some⟩ := Option.isSome_iff_exists.1 power
      exact ⟨'e', by simp [some, NumberStyle.exponentText], by decide⟩
  · exact ⟨'n', by simp, by decide⟩

/-- A number shown as digits alone is the integer they write. -/
theorem Number.integer_of_digits {n : Number} (digits : ∀ c ∈ n.chars, c.isDigit = true) :
    n = .integer (Text.decimal n.text) := by
  cases n with
  | integer i =>
    have positive : ¬ i < 0 := by
      intro negative
      have minus : '-' ∈ (Number.integer i).chars := by simp [chars, integerChars, negative]
      exact absurd (digits _ minus) (by decide)
    rw [Text.decimal, text, String.toList_ofList, chars, integerChars, if_neg positive,
      Nat.ofDigitChars_ten_toDigits, Int.natAbs_of_nonneg (Int.not_lt.1 positive)]
  | float x =>
    obtain ⟨c, member, other⟩ := not_digits_float x
    rw [digits c member] at other
    contradiction

/-- What is shown as digits alone is compared as the number they write. -/
theorem Value.number?_of_digits {length : Nat} {v : Value} {text : String}
    (shown : v.scalarText? = some text) (nonempty : 0 < length)
    (digits : Text.Digits length text) : v.number? = some (.ofInt (Text.decimal text)) := by
  cases v with
  | string s =>
    obtain rfl := Option.some.inj shown
    exact Binary64.ofText?_of_digits nonempty digits
  | number n =>
    obtain rfl := Option.some.inj shown
    have whole : n = .integer (Text.decimal n.text) := by
      refine Number.integer_of_digits fun c member => digits.digits c ?_
      rwa [Number.text, String.toList_ofList]
    exact congrArg (fun n => some n.toBinary64) whole
  | bool b =>
    obtain rfl := Option.some.inj shown
    have letter := digits.digits
    cases b <;> exact absurd (letter 'e' (by decide)) (by decide)
  | null | array | object => contradiction

end Json

end RegionalTables
