import RegionalTables.Proofs.Decimal.Numeral

/-! Doubles read back from their text. The reader of numbers takes what either style writes, and it
gives the very double that was written, sign and infinity included; only a NaN loses its sign. -/
namespace RegionalTables.Binary64

theorem unsigned_of_isDigit {c : Char} (digit : isDigit c = true) : c ≠ '-' ∧ c ≠ '+' := by
  constructor <;> rintro rfl <;> contradiction

/-- A written power of ten is read, whether or not a sign is written. -/
theorem exponent?_exponentText (s : NumberStyle) (e : Int) :
    exponent? (s.exponentText e) = some e := by
  have digits := Decimal.isDigit_of_mem_toDigits (n := e.natAbs)
  have value : Nat.ofDigitChars 10 (Nat.toDigits 10 e.natAbs) 0 = e.natAbs :=
    Nat.ofDigitChars_ten_toDigits
  have nonempty : Nat.toDigits 10 e.natAbs ≠ [] := Nat.toDigits_ne_nil
  rw [NumberStyle.exponentText]
  generalize Nat.toDigits 10 e.natAbs = text at digits value nonempty
  by_cases negative : e < 0
  · have absolute : -(e.natAbs : Int) = e := by omega
    rw [← value] at absolute
    simpa [exponent?, negative, nonempty, absolute] using digits
  · have absolute : (e.natAbs : Int) = e := by omega
    rw [← value] at absolute
    cases plus : s.plus with
    | true => simpa [exponent?, negative, nonempty, absolute] using digits
    | false =>
      cases text with
      | nil => exact absurd rfl nonempty
      | cons c others =>
        have unsigned := unsigned_of_isDigit (digits c List.mem_cons_self)
        simpa [exponent?, negative, unsigned, absolute] using digits

/-- The parts of a written number are read without its sign. -/
theorem unsigned?_chars {n : Numeral} (formed : n.WellFormed) (s : NumberStyle) :
    unsigned? (n.chars s) = some (.ofDigits n.whole (n.fraction.getD []) (n.power.getD 0)) := by
  have after := head_power s n.power .nil
  rw [List.append_nil] at after
  have exponent : exponent? ((n.power.map s.exponentText).getD []) = some (n.power.getD 0) := by
    cases n.power with
    | none => rfl
    | some e => exact exponent?_exponentText s e
  rw [Numeral.chars]
  generalize (n.power.map s.exponentText).getD [] = tail at after exponent
  have stop : NoDigit tail := fun c head => (after c head).1
  have whole := takeWhile_isDigit formed.digit (head_fraction n stop)
  have rest := dropWhile_isDigit formed.digit (head_fraction n stop)
  cases written : n.fraction with
  | none =>
    simp only [written, Option.map_none, Option.getD_none, List.nil_append] at whole rest ⊢
    cases tail with
    | nil =>
      rw [List.append_nil] at whole rest ⊢
      simp [unsigned?, whole, rest, formed.nonempty, exponent]
    | cons c others =>
      have pointless : c ≠ '.' := (after c rfl).2
      simp [unsigned?, whole, rest, formed.nonempty, exponent, pointless]
  | some digits =>
    obtain ⟨_, all⟩ := formed.fraction digits written
    simp only [written, Option.map_some, Option.getD_some, List.cons_append] at whole rest ⊢
    simp [unsigned?, whole, rest, takeWhile_isDigit all stop, dropWhile_isDigit all stop,
      formed.nonempty, exponent]

/-- What is no NaN and not finite is an infinity. -/
theorem eq_infinity {x : Binary64} (number : x.isNaN = false) (infinite : x.isFinite = false) :
    x = infinity x.negative := by
  have low := of_decide_eq_false number
  have high := of_decide_eq_false infinite
  have rank : x.rank = infinityRank := by omega
  refine Binary64.ext rfl ?_
  rw [rank]
  rfl

/-- A double is read back from its text in either style. -/
theorem ofText?_text (s : NumberStyle) {x : Binary64} (number : x.isNaN = false) :
    ofText? (s.text x) = some x := by
  rw [NumberStyle.text, number, if_neg (by decide)]
  cases finite : x.isFinite with
  | false =>
    rw [if_neg (by decide), eq_infinity number finite]
    cases x.negative with
    | true => decide
    | false => decide
  | true =>
    obtain ⟨n, writes, chars⟩ := exists_writes s finite
    have value := writes.value
    have unsigned := unsigned?_chars writes.toWellFormed s
    rw [if_pos rfl, ofText?, String.toList_ofList, chars]
    cases negative : x.negative with
    | true =>
      rw [negative] at value
      simp [unsigned, value]
    | false =>
      rw [negative] at value
      obtain ⟨c, others, whole⟩ := List.exists_cons_of_ne_nil writes.nonempty
      have first := unsigned_of_isDigit (writes.digit c (by rw [whole]; exact List.mem_cons_self))
      rw [whole] at value
      rw [Numeral.chars, whole, List.cons_append] at unsigned ⊢
      simp [unsigned, value, first]

end RegionalTables.Binary64
