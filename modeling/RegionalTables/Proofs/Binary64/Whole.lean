import Mathlib.Order.Monotone.Basic
import RegionalTables.Proofs.Binary64

/-! Whole numbers as doubles. A whole number is rounded to 53 bits, a half going to the even neighbour,
and the doubles of whole numbers are ordered as the numbers these were rounded to. -/
namespace RegionalTables.Binary64

/-- The distance of neighbours among the whole numbers of 53 bits that are as long as this one. -/
def spacing (n : Nat) : Nat := 2 ^ (n.log2 - 52)

/-- The nearest whole number of 53 bits. -/
def rounded (n : Nat) : Nat := roundHalfEven n (spacing n) * spacing n

theorem unit_pos : 0 < unit := by
  have power : ∀ n, 0 < 2 ^ n := Nat.two_pow_pos
  rw [unit_eq]
  exact power 1074

theorem spacing_pos (n : Nat) : 0 < spacing n := Nat.two_pow_pos _

theorem roundHalfEven_mono {n m : Nat} (le : n ≤ m) (d : Nat) :
    roundHalfEven n d ≤ roundHalfEven m d := by
  have quotients : n / d ≤ m / d := Nat.div_le_div_right le
  have parts := Nat.div_add_mod n d
  have parts' := Nat.div_add_mod m d
  simp only [roundHalfEven]
  obtain same | less := Nat.eq_or_lt_of_le quotients
  · rw [same] at parts ⊢
    have remainders : n % d ≤ m % d := by omega
    repeat' split
    all_goals omega
  · repeat' split
    all_goals omega

/-- A multiple of the distance that is not above a number is not above what it is rounded to. -/
theorem mul_spacing_le_rounded {n m : Nat} (le : m * spacing n ≤ n) :
    m * spacing n ≤ rounded n := by
  have kept := roundHalfEven_of_dvd m (spacing_pos n)
  have above := roundHalfEven_mono le (spacing n)
  rw [kept] at above
  exact Nat.mul_le_mul_right _ above

theorem rounded_le_mul_spacing {n m : Nat} (le : n ≤ m * spacing n) :
    rounded n ≤ m * spacing n := by
  have kept := roundHalfEven_of_dvd m (spacing_pos n)
  have below := roundHalfEven_mono le (spacing n)
  rw [kept] at below
  exact Nat.mul_le_mul_right _ below

theorem two_pow_eq_mul_spacing {n k : Nat} (long : n.log2 ≤ k) :
    2 ^ k = 2 ^ (k - (n.log2 - 52)) * spacing n := by
  have bits : k = k - (n.log2 - 52) + (n.log2 - 52) := by omega
  rw [spacing, ← Nat.pow_add, ← bits]

/-- Rounding stays between the powers of two that a number lies between. -/
theorem rounded_bounds {n : Nat} (pos : 0 < n) :
    2 ^ n.log2 ≤ rounded n ∧ rounded n ≤ 2 ^ (n.log2 + 1) := by
  have low := Nat.log2_self_le (n := n) (by omega)
  have high := Nat.le_of_lt (Nat.lt_log2_self (n := n))
  rw [two_pow_eq_mul_spacing (n := n) (Nat.le_refl _)] at low ⊢
  rw [two_pow_eq_mul_spacing (n := n) (Nat.le_succ _)] at high ⊢
  exact ⟨mul_spacing_le_rounded low, rounded_le_mul_spacing high⟩

theorem rounded_mono {a b : Nat} (le : a ≤ b) : rounded a ≤ rounded b := by
  obtain rfl | pos := Nat.eq_zero_or_pos a
  · exact Nat.zero_le _
  have logs : a.log2 ≤ b.log2 :=
    (Nat.le_log2 (by omega)).2 (Nat.le_trans (Nat.log2_self_le (by omega)) le)
  obtain same | fewer := Nat.eq_or_lt_of_le logs
  · have spacings : spacing a = spacing b := by rw [spacing, same, spacing]
    rw [rounded, rounded, spacings]
    exact Nat.mul_le_mul_right _ (roundHalfEven_mono le _)
  · calc rounded a ≤ 2 ^ (a.log2 + 1) := (rounded_bounds pos).2
      _ ≤ 2 ^ b.log2 := Nat.pow_le_pow_right (by decide) fewer
      _ ≤ rounded b := (rounded_bounds (by omega)).1

theorem rounded_eq_iff {n : Nat} : rounded n = n ↔ spacing n ∣ n := by
  constructor
  · intro kept
    exact ⟨_, kept.symm.trans (Nat.mul_comm _ _)⟩
  · rintro ⟨m, whole⟩
    rw [Nat.mul_comm] at whole
    have kept := roundHalfEven_of_dvd m (spacing_pos n)
    rw [← whole] at kept
    rw [rounded, kept, ← whole]

theorem rounded_of_small {n : Nat} (small : n ≤ 2 ^ 53) : rounded n = n := by
  rw [rounded_eq_iff, spacing]
  obtain rfl | less := Nat.eq_or_lt_of_le small
  · rw [Nat.log2_two_pow]
    exact ⟨2 ^ 52, by decide⟩
  · have log : n.log2 ≤ 52 := by
      obtain rfl | pos := Nat.eq_zero_or_pos n
      · simp
      · have := (Nat.log2_lt (by omega)).2 less
        omega
    rw [Nat.sub_eq_zero_of_le log]
    exact Nat.one_dvd n

/-- Rounding moves a number by half the distance at most. -/
theorem rounded_near (n : Nat) :
    2 * (rounded n - n) ≤ spacing n ∧ 2 * (n - rounded n) ≤ spacing n := by
  have pos := spacing_pos n
  have parts := Nat.div_add_mod n (spacing n)
  have remainder := Nat.mod_lt n pos
  have next : (n / spacing n + 1) * spacing n = spacing n * (n / spacing n) + spacing n := by
    rw [Nat.add_mul, Nat.one_mul, Nat.mul_comm]
  have here : n / spacing n * spacing n = spacing n * (n / spacing n) := Nat.mul_comm _ _
  simp only [rounded, roundHalfEven]
  split
  · omega
  · split
    · omega
    · obtain even | odd := Nat.mod_two_eq_zero_or_one (n / spacing n)
      · rw [even, Nat.add_zero]
        omega
      · rw [odd]
        omega

/-- The magnitude of the rank that has a mantissa and an exponent, where the mantissa may be that of the
next power of two. -/
theorem units_scaled (e : Nat) {m : Nat} (low : 2 ^ 52 ≤ m) (high : m ≤ 2 ^ 53) :
    units (e * 2 ^ 52 + m) = m * 2 ^ e := by
  rw [units_eq]
  obtain rfl | less := Nat.eq_or_lt_of_le high
  · have quotient : (e * 2 ^ 52 + 2 ^ 53) / 2 ^ 52 - 1 = e + 1 := by omega
    have remainder : (e * 2 ^ 52 + 2 ^ 53) % 2 ^ 52 = 0 := by omega
    rw [if_neg (by omega), quotient, remainder, Nat.pow_succ]
    omega
  · obtain rfl | pos := Nat.eq_zero_or_pos e
    · rw [if_pos (by omega)]
      omega
    · have quotient : (e * 2 ^ 52 + m) / 2 ^ 52 - 1 = e := by omega
      have remainder : (e * 2 ^ 52 + m) % 2 ^ 52 = m - 2 ^ 52 := by omega
      have mantissa : 2 ^ 52 + (m - 2 ^ 52) = m := by omega
      rw [if_neg (by omega), quotient, remainder, mantissa]

/-- Ranks are in the order of what they stand for. -/
theorem units_strictMono : StrictMono units := by
  refine strictMono_nat_of_lt_succ fun rank => ?_
  by_cases small : rank < 2 ^ 52
  · rw [units_eq, units_eq, if_pos (by omega), if_pos (by omega)]
    exact Nat.lt_succ_self rank
  · obtain ⟨e, m, low, high, rfl⟩ : ∃ e m, 2 ^ 52 ≤ m ∧ m < 2 ^ 53 ∧ rank = e * 2 ^ 52 + m :=
      ⟨rank / 2 ^ 52 - 1, 2 ^ 52 + rank % 2 ^ 52, by omega, by omega, by omega⟩
    rw [Nat.add_assoc, units_scaled e low (Nat.le_of_lt high), units_scaled e (by omega) high]
    exact Nat.mul_lt_mul_of_pos_right (Nat.lt_succ_self m) (Nat.two_pow_pos e)

/-- What a whole number is rounded to, shifted so that it has 53 bits. -/
theorem rounded_shifted {n : Nat} (pos : 0 < n) :
    2 ^ 52 ≤ roundHalfEven n (spacing n) * 2 ^ (52 - n.log2) ∧
      roundHalfEven n (spacing n) * 2 ^ (52 - n.log2) ≤ 2 ^ 53 := by
  obtain ⟨low, high⟩ := rounded_bounds pos
  have scale : rounded n * 2 ^ (52 - n.log2) =
      roundHalfEven n (spacing n) * 2 ^ (52 - n.log2) * spacing n := Nat.mul_right_comm _ _ _
  have bits : n.log2 + (52 - n.log2) = 52 + (n.log2 - 52) := by omega
  have bits' : n.log2 + 1 + (52 - n.log2) = 53 + (n.log2 - 52) := by omega
  have lowest : 2 ^ n.log2 * 2 ^ (52 - n.log2) = 2 ^ 52 * spacing n := by
    rw [spacing, ← Nat.pow_add, ← Nat.pow_add, bits]
  have highest : 2 ^ (n.log2 + 1) * 2 ^ (52 - n.log2) = 2 ^ 53 * spacing n := by
    rw [spacing, ← Nat.pow_add, ← Nat.pow_add, bits']
  have low := Nat.mul_le_mul_right (2 ^ (52 - n.log2)) low
  have high := Nat.mul_le_mul_right (2 ^ (52 - n.log2)) high
  rw [lowest, scale] at low
  rw [highest, scale] at high
  exact ⟨Nat.le_of_mul_le_mul_right low (spacing_pos n),
    Nat.le_of_mul_le_mul_right high (spacing_pos n)⟩

theorem nearestRank_unit {n : Nat} (pos : 0 < n) (small : n ≤ 2 ^ 64) :
    nearestRank (n * unit) 1 =
      (n.log2 + 1022) * 2 ^ 52 + roundHalfEven n (spacing n) * 2 ^ (52 - n.log2) := by
  have shift : (n * 2 ^ 1074).log2 - 52 = n.log2 + 1022 := by
    rw [log2_mul_two_pow pos]
    omega
  have mantissa : roundHalfEven (n * 2 ^ 1074) (2 ^ (n.log2 + 1022)) =
      roundHalfEven n (spacing n) * 2 ^ (52 - n.log2) := by
    by_cases short : n.log2 ≤ 52
    · have bits : 52 - n.log2 + (n.log2 + 1022) = 1074 := by omega
      have whole : n * 2 ^ 1074 = n * 2 ^ (52 - n.log2) * 2 ^ (n.log2 + 1022) := by
        rw [Nat.mul_assoc, ← Nat.pow_add, bits]
      have one : spacing n = 1 := by rw [spacing, Nat.sub_eq_zero_of_le short, Nat.pow_zero]
      have kept := roundHalfEven_of_dvd n (d := 1) (by omega)
      rw [Nat.mul_one] at kept
      rw [whole, roundHalfEven_of_dvd _ (Nat.two_pow_pos _), one, kept]
    · have bits : n.log2 - 52 + 1074 = n.log2 + 1022 := by omega
      have scale : 2 ^ (n.log2 + 1022) = spacing n * 2 ^ 1074 := by
        rw [spacing, ← Nat.pow_add, bits]
      rw [scale, roundHalfEven_mul _ _ (Nat.two_pow_pos _), Nat.sub_eq_zero_of_le (by omega),
        Nat.pow_zero, Nat.mul_one]
  have log : n.log2 ≤ 64 := by
    have := (Nat.log2_lt (n := n) (by omega) (k := 65)).2 (by omega)
    omega
  have high := (rounded_shifted pos).2
  rw [unit_eq, nearestRank_eq, Nat.div_one, shift, Nat.one_mul, mantissa]
  apply Nat.min_eq_right
  simp only [infinityRank]
  omega

/-- The nearest double of a whole number stands for what the number is rounded to. -/
theorem units_nearestRank {n : Nat} (small : n ≤ 2 ^ 64) :
    units (nearestRank (n * unit) 1) = rounded n * unit := by
  obtain rfl | pos := Nat.eq_zero_or_pos n
  · have zero : nearestRank (0 * unit) 1 = 0 := nearestRank_of_small (by omega)
    rw [zero, rounded_of_small (by omega), Nat.zero_mul]
    rfl
  · obtain ⟨low, high⟩ := rounded_shifted pos
    have bits : 52 - n.log2 + (n.log2 + 1022) = n.log2 - 52 + 1074 := by omega
    have scale : 2 ^ (52 - n.log2) * 2 ^ (n.log2 + 1022) = spacing n * 2 ^ 1074 := by
      rw [spacing, ← Nat.pow_add, ← Nat.pow_add, bits]
    rw [nearestRank_unit pos small, units_scaled _ low high, Nat.mul_assoc, scale, ← Nat.mul_assoc,
      unit_eq, rounded]

/-- The value of an integer's nearest double. -/
theorem toInt_ofInt {i : Int} (small : i.natAbs ≤ 2 ^ 64) :
    (ofInt i).toInt = if i < 0 then -(rounded i.natAbs : Int) else rounded i.natAbs := by
  have magnitude : units (ofInt i).rank / unit = rounded i.natAbs := by
    rw [(rank_ofInt small).1, units_nearestRank small]
    exact Nat.mul_div_cancel _ unit_pos
  simp only [toInt, magnitude]
  simp [ofInt, ofRank]

theorem toInt_ofInt_mono {a b : Int} (small : a.natAbs ≤ 2 ^ 64) (small' : b.natAbs ≤ 2 ^ 64)
    (le : a ≤ b) : (ofInt a).toInt ≤ (ofInt b).toInt := by
  rw [toInt_ofInt small, toInt_ofInt small']
  by_cases below : a < 0 <;> by_cases below' : b < 0
  · have := rounded_mono (a := b.natAbs) (b := a.natAbs) (by omega)
    rw [if_pos below, if_pos below']
    omega
  · rw [if_pos below, if_neg below']
    omega
  · omega
  · have := rounded_mono (a := a.natAbs) (b := b.natAbs) (by omega)
    rw [if_neg below, if_neg below']
    omega

/-- An integer that has 53 bits, apart from zeros at its end, is not rounded. -/
theorem toInt_ofInt_eq_iff {i : Int} (small : i.natAbs ≤ 2 ^ 64) :
    (ofInt i).toInt = i ↔ spacing i.natAbs ∣ i.natAbs := by
  rw [toInt_ofInt small, ← rounded_eq_iff]
  split <;> omega

theorem toInt_ofInt_near {i : Int} (small : i.natAbs ≤ 2 ^ 64) :
    2 * ((ofInt i).toInt - i).natAbs ≤ spacing i.natAbs := by
  have near := rounded_near i.natAbs
  rw [toInt_ofInt small]
  split <;> omega

theorem rank_ofInt_le_iff {a b : Int} (small : a.natAbs ≤ 2 ^ 64) (small' : b.natAbs ≤ 2 ^ 64) :
    (ofInt a).rank ≤ (ofInt b).rank ↔ rounded a.natAbs ≤ rounded b.natAbs := by
  rw [← units_strictMono.le_iff_le, (rank_ofInt small).1, (rank_ofInt small').1,
    units_nearestRank small, units_nearestRank small', Nat.mul_le_mul_right_iff unit_pos]

/-- Doubles of integers are in the order of their values. -/
theorem orderKey_ofInt_le_iff {a b : Int} (small : a.natAbs ≤ 2 ^ 64) (small' : b.natAbs ≤ 2 ^ 64) :
    (ofInt a).orderKey ≤ (ofInt b).orderKey ↔ (ofInt a).toInt ≤ (ofInt b).toInt := by
  have positive : ∀ {i : Int}, i < 0 → 0 < rounded i.natAbs := fun below =>
    Nat.lt_of_lt_of_le (Nat.two_pow_pos _) (rounded_bounds (by omega)).1
  have key : ∀ i : Int, (ofInt i).orderKey =
      if i < 0 then -((ofInt i).rank + 1 : Int) else (ofInt i).rank := fun i => by
    simp [orderKey, ofInt, ofRank]
  have forward := rank_ofInt_le_iff small small'
  have backward := rank_ofInt_le_iff small' small
  rw [key, key, toInt_ofInt small, toInt_ofInt small']
  by_cases below : a < 0 <;> by_cases below' : b < 0
  · simp only [below, below', if_true]
    omega
  · have := positive below
    simp only [below, below', if_true, if_false]
    omega
  · have := positive below'
    simp only [below, below', if_true, if_false]
    omega
  · simp only [below, below', if_false]
    omega

/-- Whole numbers of at most 53 bits are compared as what they are. -/
theorem atMost_ofInt {a b : Nat} (small : a < 2 ^ 53) (small' : b < 2 ^ 53) :
    (ofInt a).atMost (ofInt b) = true ↔ a ≤ b := by
  have number : ∀ {n : Nat}, n < 2 ^ 53 →
      (ofInt n).isNaN = false ∧ (ofInt n).valueKey = (ofInt n).rank := by
    intro n small
    have finite := (rank_ofInt (i := n) (by omega)).2
    have sign : (ofInt n).negative = false := decide_eq_false (Int.not_lt.2 (Int.natCast_nonneg n))
    exact ⟨decide_eq_false (by omega), by simp [valueKey, sign]⟩
  have ranks := rank_ofInt_le_iff (a := a) (b := b) (by omega) (by omega)
  rw [Int.natAbs_natCast, Int.natAbs_natCast, rounded_of_small (by omega),
    rounded_of_small (by omega)] at ranks
  obtain ⟨left, leftKey⟩ := number small
  obtain ⟨right, rightKey⟩ := number small'
  simp only [atMost, left, right, leftKey, rightKey, Bool.not_false, Bool.true_and, Int.ofNat_le,
    decide_eq_true_eq]
  exact ranks

end RegionalTables.Binary64
