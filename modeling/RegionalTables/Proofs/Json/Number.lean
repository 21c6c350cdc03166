import RegionalTables.Json.Text
import RegionalTables.Json.Tree
import RegionalTables.Proofs.Decimal.Numeral

/-! Numbers read back. A number is written as whole digits, a fraction and a power of ten, and what
follows it must not continue it. -/
namespace RegionalTables.Json

open Binary64 RegionalTables.Json.Tree

theorem wholeDigits?_append {n : Numeral} (formed : n.WellFormed) {rest : List Char}
    (stop : NoDigit rest) : wholeDigits? (n.whole ++ rest) = some (n.whole, rest) := by
  have nonempty : n.whole.isEmpty = false := by simpa using formed.nonempty
  have single : (n.whole.headD ' ' == '0' && 1 < n.whole.length) = false := by
    cases whole : n.whole with
    | nil => rfl
    | cons c others =>
      by_cases zero : c = '0'
      · have length := formed.leading (by rw [whole, zero]; rfl)
        rw [whole] at length
        simp [length]
      · simp [zero]
  simp only [wholeDigits?, takeWhile_isDigit formed.digit stop, nonempty, single, Bool.or_self,
    Bool.false_eq_true, ↓reduceIte, List.drop_left]

theorem fraction?_append {n : Numeral} (formed : n.WellFormed) {rest : List Char}
    (stop : NoDigit rest) (point : rest.head? ≠ some '.') :
    fraction? ((n.fraction.map ('.' :: ·)).getD [] ++ rest) = some (n.fraction, rest) := by
  cases written : n.fraction with
  | none =>
    cases rest with
    | nil => rfl
    | cons c rest =>
      have other : c ≠ '.' := fun same => point (by rw [same]; rfl)
      simp [fraction?, other]
  | some digits =>
    obtain ⟨nonempty, all⟩ := formed.fraction digits written
    simp [fraction?, takeWhile_isDigit all stop, nonempty]

theorem power?_append (power : Option Int) {rest : List Char} (ends : EndsNumber rest) :
    power? ((power.map NumberStyle.document.exponentText).getD [] ++ rest) = some (power, rest) := by
  cases power with
  | none =>
    cases rest with
    | nil => rfl
    | cons c rest =>
      obtain ⟨_, _, small, capital⟩ := ends c rfl
      simp [power?, small, capital]
  | some e =>
    have digits := takeWhile_isDigit (Decimal.isDigit_of_mem_toDigits (n := e.natAbs)) ends.noDigit
    have value : Nat.ofDigitChars 10 (Nat.toDigits 10 e.natAbs) 0 = e.natAbs :=
      Nat.ofDigitChars_ten_toDigits
    have nonempty : Nat.toDigits 10 e.natAbs ≠ [] := Nat.toDigits_ne_nil
    by_cases negative : e < 0
    · obtain ⟨n, rfl⟩ : ∃ n : Nat, e = -n := ⟨e.natAbs, by omega⟩
      have positive : 0 < n := by omega
      rw [Int.natAbs_neg, Int.natAbs_natCast] at digits value nonempty
      simp [power?, NumberStyle.exponentText, positive, digits, value, nonempty]
    · obtain ⟨n, rfl⟩ : ∃ n : Nat, e = n := ⟨e.natAbs, by omega⟩
      rw [Int.natAbs_natCast] at digits value nonempty
      simp [power?, NumberStyle.exponentText, NumberStyle.document, negative, digits, value, nonempty]

/-- The written parts of a number are read, whatever ends the number. -/
theorem readNumber_numeral {n : Numeral} (formed : n.WellFormed) (negative : Bool)
    {rest : List Char} (ends : EndsNumber rest) :
    readNumber ((if negative then ['-'] else []) ++ (n.chars .document ++ rest)) =
      some (denoted negative n.whole n.fraction n.power, rest) := by
  have power := power?_append n.power ends
  have stop : NoDigit ((n.power.map NumberStyle.document.exponentText).getD [] ++ rest) :=
    fun c head => (head_power .document n.power ends c head).1
  have fraction := fraction?_append formed stop fun head =>
    (head_power .document n.power ends _ head).2 rfl
  have whole := wholeDigits?_append formed (head_fraction n stop)
  rw [Numeral.chars, List.append_assoc, List.append_assoc]
  cases negative with
  | true => simp [readNumber, whole, fraction, power]
  | false =>
    cases digits : n.whole with
    | nil => exact absurd digits formed.nonempty
    | cons c others =>
      have digit := formed.digit c (by rw [digits]; exact List.mem_cons_self)
      have unsigned : c ≠ '-' := fun same => by simp [same, isDigit] at digit
      rw [digits, List.cons_append] at whole
      simp [readNumber, whole, fraction, power, unsigned]

theorem readNumber_integer {n : Int} (valid : (Number.integer n).Valid) {rest : List Char}
    (ends : EndsNumber rest) :
    readNumber (integerChars n ++ rest) = some (some (.integer n), rest) := by
  obtain ⟨low, high⟩ := valid
  have value : Nat.ofDigitChars 10 (Nat.toDigits 10 n.natAbs) 0 = n.natAbs :=
    Nat.ofDigitChars_ten_toDigits
  have chars : (Numeral.ofNat n.natAbs).chars .document = Nat.toDigits 10 n.natAbs :=
    List.append_nil _
  by_cases negative : n < 0
  · have pos : 0 < n.natAbs := by omega
    have small : n.natAbs ≤ 2 ^ 63 := by omega
    have absolute : -(n.natAbs : Int) = n := by omega
    have denotes : denoted true (Nat.toDigits 10 n.natAbs) none none = some (.integer n) := by
      have held : denoted true (Nat.toDigits 10 n.natAbs) none none =
          some (.integer (-(n.natAbs : Int))) := by
        rw [denoted, value]
        refine (if_neg (by simp)).trans (if_pos ?_)
        exact Bool.and_eq_true_iff.2 ⟨decide_eq_true pos, decide_eq_true small⟩
      rw [held, absolute]
    have read := readNumber_numeral (Numeral.wellFormed_ofNat n.natAbs) true ends
    rw [chars] at read
    rw [integerChars, if_pos negative, ← denotes]
    exact read
  · have small : n.natAbs < 2 ^ 64 := by omega
    have absolute : (n.natAbs : Int) = n := by omega
    have denotes : denoted false (Nat.toDigits 10 n.natAbs) none none = some (.integer n) := by
      have held : denoted false (Nat.toDigits 10 n.natAbs) none none =
          some (.integer (n.natAbs : Int)) := by
        rw [denoted, value]
        exact if_pos (decide_eq_true small)
      rw [held, absolute]
    have read := readNumber_numeral (Numeral.wellFormed_ofNat n.natAbs) false ends
    rw [chars] at read
    rw [integerChars, if_neg negative, ← denotes]
    exact read

theorem denoted_of_writes {n : Numeral} {x : Binary64} (writes : n.Writes x)
    (finite : x.isFinite = true) :
    denoted x.negative n.whole n.fraction n.power = some (.float x) := by
  have inexact : (n.fraction.isNone && n.power.isNone) = false := by
    rcases writes.inexact with fraction | power
    · rw [← Option.not_isSome, fraction, Bool.not_true, Bool.false_and]
    · rw [← Option.not_isSome (a := n.power), power, Bool.not_true, Bool.and_false]
  simp [denoted, inexact, writes.value, finite?, finite]

theorem readNumber_float {x : Binary64} (finite : x.isFinite = true) {rest : List Char}
    (ends : EndsNumber rest) :
    readNumber (NumberStyle.document.chars x ++ rest) = some (some (.float x), rest) := by
  obtain ⟨n, writes, chars⟩ := exists_writes .document finite
  rw [chars, List.append_assoc, readNumber_numeral writes.toWellFormed x.negative ends,
    denoted_of_writes writes finite]

/-- A number that a document can hold is read back. -/
theorem readNumber_chars {n : Number} (valid : n.Valid) {rest : List Char}
    (ends : EndsNumber rest) : readNumber (n.chars ++ rest) = some (some n, rest) := by
  cases n with
  | integer i => exact readNumber_integer valid ends
  | float x =>
    have finite : x.isFinite = true := valid
    rw [Number.chars, if_pos finite]
    exact readNumber_float finite ends

end RegionalTables.Json
