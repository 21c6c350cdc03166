import Mathlib.Algebra.Group.Nat.Defs
import RegionalTables.Binary64

/-! Rounding to doubles. What is rounded is a quotient, so a common factor does not matter, and the
magnitude of a rank is rounded to this rank. -/
namespace RegionalTables.Binary64

theorem unit_eq : unit = 2 ^ 1074 := by
  have power : ∀ n, 1 <<< n = 2 ^ n := Nat.one_shiftLeft
  exact power 1074

theorem units_eq (rank : Nat) : units rank =
    if rank < 2 ^ 53 then rank else (2 ^ 52 + rank % 2 ^ 52) * 2 ^ (rank / 2 ^ 52 - 1) := by
  rw [units, Nat.shiftLeft_eq]
  rfl

theorem nearestRank_eq (n d : Nat) : nearestRank n d = min infinityRank
    (((n / d).log2 - 52) * 2 ^ 52 + roundHalfEven n (d * 2 ^ ((n / d).log2 - 52))) := by
  rw [nearestRank, Nat.shiftLeft_eq]
  rfl

theorem roundHalfEven_mul (n d : Nat) {k : Nat} (pos : 0 < k) :
    roundHalfEven (n * k) (d * k) = roundHalfEven n d := by
  have twice : 2 * (n % d * k) = 2 * (n % d) * k := by rw [Nat.mul_assoc]
  simp only [roundHalfEven, Nat.mul_div_mul_right n d pos, Nat.mul_mod_mul_right, twice,
    Nat.mul_lt_mul_right pos]

theorem nearestRank_mul (n d : Nat) {k : Nat} (pos : 0 < k) :
    nearestRank (n * k) (d * k) = nearestRank n d := by
  have scale : ∀ s, d * k * 2 ^ s = d * 2 ^ s * k := fun s => Nat.mul_right_comm d k (2 ^ s)
  simp only [nearestRank_eq, Nat.mul_div_mul_right n d pos, scale, roundHalfEven_mul _ _ pos]

theorem roundHalfEven_of_dvd (m : Nat) {d : Nat} (pos : 0 < d) : roundHalfEven (m * d) d = m := by
  simp [roundHalfEven, Nat.mul_div_cancel m pos, pos]

theorem log2_mul_two_pow {m : Nat} (pos : 0 < m) (s : Nat) : (m * 2 ^ s).log2 = m.log2 + s := by
  have whole : m * 2 ^ s ≠ 0 := Nat.mul_ne_zero (by omega) (by simp)
  apply Nat.le_antisymm
  · have bound : m * 2 ^ s < 2 ^ (m.log2 + 1) * 2 ^ s :=
      Nat.mul_lt_mul_of_pos_right Nat.lt_log2_self (Nat.two_pow_pos s)
    rw [← Nat.pow_add] at bound
    have := (Nat.log2_lt whole).2 bound
    omega
  · rw [Nat.le_log2 whole, Nat.pow_add]
    exact Nat.mul_le_mul_right _ (Nat.log2_self_le (by omega))

/-- A magnitude of a rank is nearest to this rank. -/
theorem nearestRank_units {rank : Nat} (finite : rank < infinityRank) :
    nearestRank (units rank) 1 = rank := by
  rw [units_eq]
  split
  · next small =>
    have shift : rank.log2 - 52 = 0 := by
      by_cases zero : rank = 0
      · simp [zero]
      · have := (Nat.log2_lt zero).2 small
        omega
    have whole := roundHalfEven_of_dvd rank (d := 1) (by omega)
    rw [Nat.mul_one] at whole
    simp only [nearestRank_eq, Nat.div_one, shift, Nat.pow_zero, Nat.mul_one, Nat.zero_mul, whole]
    omega
  · next large =>
    have mantissa : (2 ^ 52 + rank % 2 ^ 52).log2 = 52 := by
      have low := (Nat.le_log2 (n := 2 ^ 52 + rank % 2 ^ 52) (by omega) (k := 52)).2 (by omega)
      have high := (Nat.log2_lt (n := 2 ^ 52 + rank % 2 ^ 52) (by omega) (k := 53)).2 (by omega)
      omega
    have log := log2_mul_two_pow (m := 2 ^ 52 + rank % 2 ^ 52) (by omega) (rank / 2 ^ 52 - 1)
    have shift : 52 + (rank / 2 ^ 52 - 1) - 52 = rank / 2 ^ 52 - 1 := by omega
    have exact := roundHalfEven_of_dvd (2 ^ 52 + rank % 2 ^ 52) (d := 2 ^ (rank / 2 ^ 52 - 1))
      (Nat.two_pow_pos _)
    simp only [nearestRank_eq, Nat.div_one, Nat.one_mul, log, mantissa, shift, exact]
    omega

theorem nearestRank_of_large {n : Nat} (large : 2 ^ (2047 + 52) ≤ n) :
    nearestRank n 1 = infinityRank := by
  have pos : n ≠ 0 := Nat.ne_of_gt (Nat.lt_of_lt_of_le (Nat.two_pow_pos _) large)
  have log := (Nat.le_log2 pos).2 large
  simp only [nearestRank_eq, Nat.div_one]
  apply Nat.min_eq_left
  calc infinityRank = 2047 * 2 ^ 52 := rfl
    _ ≤ (n.log2 - 52) * 2 ^ 52 := Nat.mul_le_mul_right _ (by omega)
    _ ≤ _ := Nat.le_add_right _ _

theorem nearestRank_of_small {n d : Nat} (small : 2 * n < d) : nearestRank n d = 0 := by
  have quotient : n / d = 0 := Nat.div_eq_of_lt (by omega)
  have remainder : n % d = n := Nat.mod_eq_of_lt (by omega)
  simp [nearestRank_eq, roundHalfEven, quotient, remainder, small]

theorem roundHalfEven_le (n d : Nat) : roundHalfEven n d ≤ n / d + 1 := by
  simp only [roundHalfEven]
  split
  · omega
  · split
    · omega
    · have := Nat.mod_lt (n / d) (by decide : 2 > 0)
      omega

/-- Magnitudes below the last binade are rounded to finite ranks. -/
theorem nearestRank_lt {n k : Nat} (small : n < 2 ^ k) (low : k ≤ 2044 + 53) :
    nearestRank n 1 < infinityRank := by
  have shift : n.log2 - 52 ≤ 2044 := by
    by_cases zero : n = 0
    · simp [zero]
    · have := (Nat.log2_lt zero).2 small
      omega
  have quotient : n / 2 ^ (n.log2 - 52) < 2 ^ 53 := by
    rw [Nat.div_lt_iff_lt_mul (Nat.two_pow_pos _), ← Nat.pow_add]
    exact Nat.lt_of_lt_of_le Nat.lt_log2_self (Nat.pow_le_pow_right (by decide) (by omega))
  have rounded := roundHalfEven_le n (2 ^ (n.log2 - 52))
  have scaled : (n.log2 - 52) * 2 ^ 52 ≤ 2044 * 2 ^ 52 := Nat.mul_le_mul_right _ shift
  simp only [nearestRank_eq, Nat.div_one, Nat.one_mul, infinityRank] at *
  omega

theorem mul_two_pow_lt {a m : Nat} (small : a < 2 ^ m) (n : Nat) : a * 2 ^ n < 2 ^ (m + n) := by
  rw [Nat.pow_add]
  exact Nat.mul_lt_mul_of_pos_right small (Nat.two_pow_pos n)

theorem rank_ofRank {rank : Nat} (finite : rank < infinityRank) (negative : Bool) :
    (ofRank negative rank).rank = rank := by
  have limit : infinityRank < 0x7FFFFFFFFFFFFFFF := by decide
  exact Nat.min_eq_left (by omega)

theorem rank_ofInt {i : Int} (small : i.natAbs ≤ 2 ^ 64) :
    (ofInt i).rank = nearestRank (i.natAbs * unit) 1 ∧ (ofInt i).rank < infinityRank := by
  have finite : nearestRank (i.natAbs * unit) 1 < infinityRank := by
    rw [unit_eq]
    exact nearestRank_lt (mul_two_pow_lt (m := 65) (by omega) 1074) (by omega)
  rw [ofInt, rank_ofRank finite]
  exact ⟨rfl, finite⟩

/-- Whole numbers of 64 bits are finite doubles. -/
theorem isFinite_ofInt {i : Int} (small : i.natAbs ≤ 2 ^ 64) : (ofInt i).isFinite = true :=
  decide_eq_true (rank_ofInt small).2

end RegionalTables.Binary64
