import RegionalTables.Decimal
import RegionalTables.Proofs.Binary64

/-! Decimals as digits. A decimal keeps its rank when zeros move between coefficient and exponent,
and the shortest decimal of a rank has this rank. -/
namespace RegionalTables.Decimal

open Binary64

theorem two_pow_le_ten_pow (n : Nat) : 2 ^ (3 * n) ≤ 10 ^ n := by
  rw [Nat.pow_mul]
  exact Nat.pow_le_pow_left (by decide) n

theorem nearestRank_of_large_exponent {c n : Nat} (nonzero : c ≠ 0) (large : 400 < n) :
    nearestRank (c * 10 ^ n * unit) 1 = infinityRank := by
  have bound : ∀ m k, m ≤ 3 * n + k → 2 ^ m ≤ c * 10 ^ n * 2 ^ k := by
    intro m k low
    calc 2 ^ m ≤ 2 ^ (3 * n + k) := Nat.pow_le_pow_right (by decide) low
      _ = 2 ^ (3 * n) * 2 ^ k := Nat.pow_add 2 (3 * n) k
      _ ≤ c * 10 ^ n * 2 ^ k := Nat.mul_le_mul_right _ (Nat.le_trans (two_pow_le_ten_pow n)
        (Nat.le_mul_of_pos_left _ (Nat.pos_of_ne_zero nonzero)))
  apply nearestRank_of_large
  rw [unit_eq]
  exact bound (2047 + 52) 1074 (by omega)

theorem nearestRank_of_small_exponent {c n : Nat} (small : c.log2 + 1 + 400 < n) :
    nearestRank (c * unit) (10 ^ n) = 0 := by
  apply nearestRank_of_small
  rw [unit_eq]
  calc 2 * (c * 2 ^ 1074) < 2 * 2 ^ (c.log2 + 1 + 1074) :=
        Nat.mul_lt_mul_of_pos_left (mul_two_pow_lt Nat.lt_log2_self 1074) (by decide)
    _ = 2 ^ (c.log2 + 1 + 1074 + 1) := by rw [Nat.pow_succ 2 (c.log2 + 1 + 1074), Nat.mul_comm]
    _ ≤ 2 ^ (3 * n) := Nat.pow_le_pow_right (by decide) (by omega)
    _ ≤ 10 ^ n := two_pow_le_ten_pow n

/-- The cut-offs for extreme exponents only save work. -/
theorem rank_eq (d : Decimal) : d.rank =
    nearestRank (d.coefficient * 10 ^ d.exponent.toNat * unit) (10 ^ (-d.exponent).toNat) := by
  obtain ⟨c, e⟩ := d
  simp only [rank, Nat.pow_eq]
  split
  · next zero =>
    have pos : 0 < 10 ^ (-e).toNat := Nat.pow_pos (by decide)
    rw [zero, Nat.zero_mul, Nat.zero_mul, nearestRank_of_small pos]
  · next nonzero =>
    split
    · next large =>
      have none : (-e).toNat = 0 := by omega
      rw [none, Nat.pow_zero, nearestRank_of_large_exponent nonzero (by omega)]
    · split
      · next small =>
        have none : e.toNat = 0 := by omega
        rw [none, Nat.pow_zero, Nat.mul_one, nearestRank_of_small_exponent (by omega)]
      · split
        · next whole =>
          have none : (-e).toNat = 0 := by omega
          rw [none, Nat.pow_zero]
        · next fraction =>
          have none : e.toNat = 0 := by omega
          rw [none, Nat.pow_zero, Nat.mul_one]

/-- Zeros at the end of the coefficient may as well count as exponent. -/
theorem rank_shift (c k : Nat) (e : Int) : rank ⟨c * 10 ^ k, e⟩ = rank ⟨c, e + k⟩ := by
  obtain ⟨j, top, bottom⟩ : ∃ j, k + e.toNat = (e + k).toNat + j ∧
      (-e).toNat = (-(e + k)).toNat + j :=
    ⟨k + e.toNat - (e + k).toNat, by omega, by omega⟩
  have numerator : c * 10 ^ k * 10 ^ e.toNat * unit = c * 10 ^ (e + k).toNat * unit * 10 ^ j := by
    rw [Nat.mul_assoc c, ← Nat.pow_add, top, Nat.pow_add, ← Nat.mul_assoc, Nat.mul_right_comm]
  have pos : 0 < 10 ^ j := Nat.pow_pos (by decide)
  rw [rank_eq, rank_eq]
  simp only
  rw [numerator, bottom, Nat.pow_add, nearestRank_mul _ _ pos]

theorem rank_of_neighbour? {rank : Nat} {exponent : Int} {d : Decimal}
    (found : neighbour? rank exponent = some d) : d.rank = rank := by
  simp only [neighbour?] at found
  split at found
  · next below =>
    split at found
    · next above =>
      obtain rfl := Option.some.inj found
      exact of_decide_eq_true (Bool.and_eq_true_iff.1 above).1
    · obtain rfl := Option.some.inj found
      exact below
  · split at found
    · next above =>
      obtain rfl := Option.some.inj found
      exact above
    · contradiction

theorem rank_exact {rank : Nat} (finite : rank < infinityRank) : (exact rank).rank = rank := by
  have none : (-1074 : Int).toNat = 0 := by decide
  have all : (- -1074 : Int).toNat = 1074 := by decide
  rw [rank_eq, exact, unit_eq]
  simp only [none, all]
  -- the powers are never worked out
  generalize 1074 = k
  have cancelled := nearestRank_mul (units rank) 1 (k := 10 ^ k) (Nat.pow_pos (by decide))
  rw [Nat.one_mul] at cancelled
  rw [Nat.pow_eq, Nat.pow_zero, Nat.mul_one, Nat.mul_assoc, ← Nat.mul_pow]
  exact cancelled.trans (nearestRank_units finite)

/-- The shortest decimal of a rank reads back as this rank. -/
theorem rank_shortest {rank : Nat} (finite : rank < infinityRank) :
    (shortest rank).rank = rank := by
  rw [shortest]
  cases found : (List.range 17).findSome? fun (more : Nat) =>
      neighbour? rank (leadingExponent rank - more) with
  | none => exact rank_exact finite
  | some d =>
    obtain ⟨more, _, is⟩ := List.exists_of_findSome?_eq_some found
    exact rank_of_neighbour? is

/-- Digits as they start a number: there is one, and the first is no zero. -/
structure Significant (digits : List Char) : Prop where
  digit : ∀ c ∈ digits, isDigit c = true
  first : ∃ d rest, digits = d :: rest ∧ d ≠ '0'

theorem isDigit_of_digit {c : Char} (digit : c.isDigit = true) : isDigit c = true := by
  simpa [Char.isDigit, isDigit, Char.le_def, UInt32.le_iff_toNat_le] using digit

theorem isDigit_of_mem_toDigits {n : Nat} : ∀ c ∈ Nat.toDigits 10 n, isDigit c = true :=
  fun _ member => isDigit_of_digit (Nat.isDigit_of_mem_toDigits (by decide) (by decide) member)

/-- A number is told by its digits. -/
theorem toString_injective {m n : Nat} (same : toString m = toString n) : m = n := by
  have digits := congrArg (fun s => Nat.ofDigitChars 10 s.toList 0) same
  simpa only [Nat.toString_eq_repr, Nat.toList_repr, Nat.ofDigitChars_ten_toDigits] using digits

theorem first_toDigits {n : Nat} (nonzero : n ≠ 0) :
    ∃ d rest, Nat.toDigits 10 n = d :: rest ∧ d ≠ '0' := by
  by_cases small : n < 10
  · refine ⟨_, _, Nat.toDigits_of_lt_base small, ?_⟩
    simpa using nonzero
  · obtain ⟨d, rest, digits, apart⟩ := first_toDigits (n := n / 10) (by omega)
    refine ⟨d, rest ++ [Nat.digitChar (n % 10)], ?_, apart⟩
    rw [Nat.toDigits_of_base_le (by decide) (by omega), digits]
    rfl

/-- Only zeros are trimmed off. -/
theorem toDigits_eq_trimmed (d : Decimal) : ∃ k, d.trimmed.2 = d.exponent + (k : Nat) ∧
    Nat.toDigits 10 d.coefficient = d.trimmed.1 ++ List.replicate k '0' := by
  let digits := Nat.toDigits 10 d.coefficient
  let zeros := digits.reverse.takeWhile (· == '0')
  have parts : digits = d.trimmed.1 ++ zeros.reverse := by
    rw [← List.reverse_reverse digits, ← List.takeWhile_append_dropWhile (p := (· == '0'))
      (l := digits.reverse), List.reverse_append]
    rfl
  have allZero : zeros.reverse = List.replicate zeros.length '0' := by
    refine List.eq_replicate_iff.2 ⟨List.length_reverse, fun c member => ?_⟩
    have zero := List.all_eq_true.1 List.all_takeWhile c (List.mem_reverse.1 member)
    exact eq_of_beq zero
  refine ⟨zeros.length, ?_, ?_⟩
  · have length := congrArg List.length parts
    rw [List.length_append, List.length_reverse] at length
    change d.exponent + ((digits.length - d.trimmed.1.length : Nat) : Int) = _
    omega
  · rw [← allZero]
    exact parts

theorem significant_trimmed {d : Decimal} (nonzero : d.coefficient ≠ 0) : Significant d.trimmed.1 := by
  obtain ⟨k, _, parts⟩ := toDigits_eq_trimmed d
  obtain ⟨c, rest, digits, apart⟩ := first_toDigits nonzero
  constructor
  · intro c member
    exact isDigit_of_mem_toDigits c (by rw [parts]; exact List.mem_append_left _ member)
  · rw [digits] at parts
    cases kept : d.trimmed.1 with
    | nil =>
      rw [kept, List.nil_append] at parts
      have zero : c ∈ List.replicate k '0' := by rw [← parts]; exact List.mem_cons_self
      exact absurd (List.eq_of_mem_replicate zero) apart
    | cons first others =>
      rw [kept, List.cons_append] at parts
      obtain rfl := (List.cons.inj parts).1
      exact ⟨_, _, rfl, apart⟩

theorem rank_trimmed (d : Decimal) :
    rank ⟨Nat.ofDigitChars 10 d.trimmed.1 0, d.trimmed.2⟩ = d.rank := by
  obtain ⟨k, exponent, parts⟩ := toDigits_eq_trimmed d
  have coefficient : d.coefficient = Nat.ofDigitChars 10 d.trimmed.1 0 * 10 ^ k := by
    have whole : Nat.ofDigitChars 10 (Nat.toDigits 10 d.coefficient) 0 = d.coefficient :=
      Nat.ofDigitChars_ten_toDigits
    rw [parts, Nat.ofDigitChars_append, Nat.ofDigitChars_replicate_zero, Nat.mul_comm] at whole
    exact whole.symm
  rw [exponent, ← rank_shift, ← coefficient]

end RegionalTables.Decimal
