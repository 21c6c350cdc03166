import RegionalTables.Proofs.Decimal

/-! Written numbers in their parts: whole digits, a fraction and a power of ten. The text of a finite
double is that of parts which stand for it, in every style. -/
namespace RegionalTables

open Binary64

/-- The parts of a written number after its sign. -/
structure Numeral where
  whole : List Char
  fraction : Option (List Char)
  power : Option Int

namespace Numeral

def chars (n : Numeral) (s : NumberStyle) : List Char :=
  n.whole ++ ((n.fraction.map ('.' :: ·)).getD [] ++ (n.power.map s.exponentText).getD [])

/-- The parts are digits, and no zero stands before other whole digits. -/
structure WellFormed (n : Numeral) : Prop where
  digit : ∀ c ∈ n.whole, isDigit c = true
  nonempty : n.whole ≠ []
  leading : n.whole.head? = some '0' → n.whole.length = 1
  fraction : ∀ digits, n.fraction = some digits → digits ≠ [] ∧ ∀ c ∈ digits, isDigit c = true

end Numeral

/-- The text does not go on with a digit. -/
def NoDigit (rest : List Char) : Prop := ∀ c, rest.head? = some c → isDigit c = false

/-- The text does not continue a number. -/
def EndsNumber (rest : List Char) : Prop :=
  ∀ c, rest.head? = some c → isDigit c = false ∧ c ≠ '.' ∧ c ≠ 'e' ∧ c ≠ 'E'

theorem EndsNumber.nil : EndsNumber [] := fun _ head => by contradiction

theorem EndsNumber.noDigit {rest : List Char} (ends : EndsNumber rest) : NoDigit rest :=
  fun c head => (ends c head).1

theorem takeWhile_isDigit {digits rest : List Char} (all : ∀ c ∈ digits, isDigit c = true)
    (stop : NoDigit rest) : (digits ++ rest).takeWhile isDigit = digits := by
  rw [List.takeWhile_append_of_pos all]
  cases rest with
  | nil => simp
  | cons c rest =>
    have other := stop c rfl
    simp [other]

theorem dropWhile_isDigit {digits rest : List Char} (all : ∀ c ∈ digits, isDigit c = true)
    (stop : NoDigit rest) : (digits ++ rest).dropWhile isDigit = rest := by
  rw [List.dropWhile_append_of_pos all]
  cases rest with
  | nil => rfl
  | cons c rest =>
    have other := stop c rfl
    simp [other]

theorem isDigit_zero : ∀ c ∈ ['0'], isDigit c = true := by
  intro c member
  rw [List.mem_singleton.1 member]
  decide

theorem head_power (s : NumberStyle) (power : Option Int) {rest : List Char}
    (ends : EndsNumber rest) :
    ∀ c, ((power.map s.exponentText).getD [] ++ rest).head? = some c →
      isDigit c = false ∧ c ≠ '.' := by
  intro c head
  cases power with
  | none => exact ⟨(ends c head).1, (ends c head).2.1⟩
  | some e =>
    obtain rfl : 'e' = c := Option.some.inj head
    exact ⟨by decide, by decide⟩

theorem head_fraction (n : Numeral) {rest : List Char} (stop : NoDigit rest) :
    NoDigit ((n.fraction.map ('.' :: ·)).getD [] ++ rest) := by
  intro c head
  cases written : n.fraction with
  | none =>
    rw [written] at head
    exact stop c head
  | some digits =>
    rw [written] at head
    obtain rfl : '.' = c := Option.some.inj head
    decide

/-- An integer is written as its whole digits. -/
def Numeral.ofNat (n : Nat) : Numeral := ⟨Nat.toDigits 10 n, none, none⟩

theorem Numeral.wellFormed_ofNat (n : Nat) : (ofNat n).WellFormed where
  digit := Decimal.isDigit_of_mem_toDigits
  nonempty := Nat.toDigits_ne_nil
  leading head := by
    by_cases zero : n = 0
    · rw [zero]
      rfl
    · obtain ⟨d, rest, digits, apart⟩ := Decimal.first_toDigits zero
      rw [ofNat, digits] at head
      exact absurd (Option.some.inj head) apart
  fraction _ written := by contradiction

/-- What has a fraction or a power is no integer. -/
structure Numeral.Inexact (n : Numeral) : Prop extends n.WellFormed where
  inexact : n.fraction.isSome = true ∨ n.power.isSome = true

/-- The parts stand for the digits, of which the last counts `10 ^ exponent`. -/
structure Numeral.Spells (n : Numeral) (digits : List Char) (exponent : Int) : Prop
    extends n.Inexact where
  rank : (Decimal.ofDigits n.whole (n.fraction.getD []) (n.power.getD 0)).rank =
    Decimal.rank ⟨Nat.ofDigitChars 10 digits 0, exponent⟩

section

variable {digits : List Char} (significant : Decimal.Significant digits)

include significant

theorem head_significant (rest : List Char) : (digits ++ rest).head? ≠ some '0' := by
  obtain ⟨d, others, rfl, apart⟩ := significant.first
  simpa using apart

theorem ne_nil_significant : digits ≠ [] := by
  obtain ⟨d, others, rfl, _⟩ := significant.first
  exact List.cons_ne_nil d others

theorem spells_whole (k : Nat) :
    Numeral.Spells ⟨digits ++ List.replicate k '0', some ['0'], none⟩ digits k where
  digit c member := by
    rcases List.mem_append.1 member with kept | zero
    · exact significant.digit c kept
    · rw [List.eq_of_mem_replicate zero]
      decide
  nonempty := List.append_ne_nil_of_left_ne_nil (ne_nil_significant significant) _
  leading head := absurd head (head_significant significant _)
  fraction digits same := by
    obtain rfl := Option.some.inj same
    exact ⟨by decide, isDigit_zero⟩
  inexact := .inl rfl
  rank := by
    have zeros : digits ++ List.replicate k '0' ++ ['0'] = digits ++ List.replicate (k + 1) '0' := by
      rw [List.append_assoc, List.replicate_succ']
    have exponent : (-1 : Int) + (k + 1 : Nat) = k := by omega
    simp only [Decimal.ofDigits, Option.getD_some, Option.getD_none, zeros,
      Nat.ofDigitChars_append, Nat.ofDigitChars_replicate_zero]
    rw [Nat.mul_comm, Decimal.rank_shift]
    exact congrArg (fun e => Decimal.rank ⟨_, e⟩) exponent

theorem spells_split (point : Nat) (pos : 0 < point) (inside : point < digits.length) :
    Numeral.Spells ⟨digits.take point, some (digits.drop point), none⟩ digits
      ((point : Int) - digits.length) where
  digit c member := significant.digit c (List.mem_of_mem_take member)
  nonempty := by
    intro none
    have length := congrArg List.length none
    simp only [List.length_take, List.length_nil] at length
    omega
  leading head := by
    rw [List.head?_take, if_neg (by omega)] at head
    have first := head_significant significant []
    rw [List.append_nil] at first
    contradiction
  fraction ds same := by
    obtain rfl := Option.some.inj same
    constructor
    · intro none
      have length := congrArg List.length none
      simp only [List.length_drop, List.length_nil] at length
      omega
    · intro c member
      exact significant.digit c (List.mem_of_mem_drop member)
  inexact := .inl rfl
  rank := by
    have exponent : (0 : Int) - (digits.drop point).length = point - digits.length := by
      rw [List.length_drop]
      omega
    simp only [Decimal.ofDigits, Option.getD_some, Option.getD_none, List.take_append_drop, exponent]

theorem spells_small (zeros : Nat) :
    Numeral.Spells ⟨['0'], some (List.replicate zeros '0' ++ digits), none⟩ digits
      (-(zeros : Int) - digits.length) where
  digit c member := by
    obtain rfl := List.mem_singleton.1 member
    decide
  nonempty := List.cons_ne_nil _ _
  leading _ := rfl
  fraction ds same := by
    obtain rfl := Option.some.inj same
    constructor
    · exact List.append_ne_nil_of_right_ne_nil _ (ne_nil_significant significant)
    · intro c member
      rcases List.mem_append.1 member with zero | kept
      · rw [List.eq_of_mem_replicate zero]
        decide
      · exact significant.digit c kept
  inexact := .inl rfl
  rank := by
    have chars : ['0'] ++ (List.replicate zeros '0' ++ digits) =
        List.replicate (zeros + 1) '0' ++ digits := rfl
    have exponent : (0 : Int) - (List.replicate zeros '0' ++ digits).length =
        -zeros - digits.length := by
      rw [List.length_append, List.length_replicate]
      omega
    simp only [Decimal.ofDigits, Option.getD_some, Option.getD_none, chars, exponent,
      Nat.ofDigitChars_append, Nat.ofDigitChars_replicate_zero, Nat.mul_zero]

end

theorem spells_single {d : Char} (digit : isDigit d = true) (power : Int) :
    Numeral.Spells ⟨[d], none, some power⟩ [d] power where
  digit c member := by
    obtain rfl := List.mem_singleton.1 member
    exact digit
  nonempty := List.cons_ne_nil _ _
  leading _ := rfl
  fraction _ same := by contradiction
  inexact := .inr rfl
  rank := by simp [Decimal.ofDigits]

theorem spells_scientific {d : Char} {rest : List Char} (nonempty : rest ≠ [])
    (digit : ∀ c ∈ d :: rest, isDigit c = true) (power : Int) :
    Numeral.Spells ⟨[d], some rest, some power⟩ (d :: rest) (power - rest.length) where
  digit c member := by
    obtain rfl := List.mem_singleton.1 member
    exact digit c List.mem_cons_self
  nonempty := List.cons_ne_nil _ _
  leading _ := rfl
  fraction ds same := by
    obtain rfl := Option.some.inj same
    exact ⟨nonempty, fun c member => digit c (List.mem_cons_of_mem d member)⟩
  inexact := .inl rfl
  rank := rfl

/-- Digits in positional form are the parts of a number with their value. -/
theorem spells_positional (s : NumberStyle) {digits : List Char}
    (significant : Decimal.Significant digits) (exponent : Int) :
    ∃ n : Numeral, n.Spells digits exponent ∧ n.chars s = s.positional digits exponent := by
  generalize text : s.positional digits exponent = chars
  simp only [NumberStyle.positional] at text
  split at text
  · next whole =>
    have same : ((exponent.toNat : Nat) : Int) = exponent := by omega
    have spells := spells_whole significant exponent.toNat
    rw [same] at spells
    exact ⟨_, spells, by simp [Numeral.chars, ← text]⟩
  · split at text
    · next inside =>
      have same : (((digits.length + exponent).toNat : Nat) : Int) - digits.length = exponent := by
        omega
      have spells := spells_split significant (digits.length + exponent).toNat (by omega) (by omega)
      rw [same] at spells
      exact ⟨_, spells, by simp [Numeral.chars, ← text]⟩
    · split at text
      · next small =>
        have same : -(((-(digits.length + exponent)).toNat : Nat) : Int) - digits.length =
            exponent := by omega
        have spells := spells_small significant (-(digits.length + exponent)).toNat
        rw [same] at spells
        exact ⟨_, spells, by simp [Numeral.chars, ← text]⟩
      · split at text
        · exact absurd rfl (ne_nil_significant significant)
        · next d _ _ _ =>
          have same : (([d] : List Char).length + exponent - 1 : Int) = exponent := by
            rw [List.length_singleton]
            omega
          have spells := spells_single (significant.digit d List.mem_cons_self)
            (([d] : List Char).length + exponent - 1)
          refine ⟨_, by rw [same] at spells; exact spells, ?_⟩
          rw [same] at text
          simp [Numeral.chars, ← text]
        · next d rest nonempty _ _ _ =>
          have same : ((d :: rest).length + exponent - 1 : Int) - rest.length = exponent := by
            rw [List.length_cons]
            omega
          have spells := spells_scientific nonempty significant.digit
            ((d :: rest).length + exponent - 1)
          rw [same] at spells
          exact ⟨_, spells, by simp [Numeral.chars, ← text]⟩

theorem spells_zero : Numeral.Spells ⟨['0'], some ['0'], none⟩ ['0', '0'] (-1) where
  digit c member := by
    obtain rfl := List.mem_singleton.1 member
    decide
  nonempty := List.cons_ne_nil _ _
  leading _ := rfl
  fraction ds same := by
    obtain rfl := Option.some.inj same
    exact ⟨by decide, isDigit_zero⟩
  inexact := .inl rfl
  rank := rfl

/-- With the sign of the double the parts stand for this double. -/
structure Numeral.Writes (n : Numeral) (x : Binary64) : Prop extends n.Inexact where
  value : ofDecimal x.negative (.ofDigits n.whole (n.fraction.getD []) (n.power.getD 0)) = x

theorem Numeral.Spells.writes {n : Numeral} {digits : List Char} {exponent : Int} {x : Binary64}
    (spells : n.Spells digits exponent) (finite : x.isFinite = true)
    (rank : Decimal.rank ⟨Nat.ofDigitChars 10 digits 0, exponent⟩ = x.rank) : n.Writes x where
  toInexact := spells.toInexact
  value := by
    have small : x.rank < infinityRank := of_decide_eq_true finite
    rw [ofDecimal, spells.rank, rank]
    exact Binary64.ext rfl (rank_ofRank small x.negative)

/-- The text of a finite double is the text of parts that stand for it. -/
theorem exists_writes (s : NumberStyle) {x : Binary64} (finite : x.isFinite = true) :
    ∃ n : Numeral, n.Writes x ∧ s.chars x = (if x.negative then ['-'] else []) ++ n.chars s := by
  have signed : ∀ body : List Char, (if x.negative then '-' :: body else body) =
      (if x.negative then ['-'] else []) ++ body := by
    intro body
    cases x.negative <;> rfl
  rw [NumberStyle.chars, signed]
  by_cases zero : x.rank = 0
  · refine ⟨_, spells_zero.writes finite ?_, ?_⟩
    · rw [zero]
      rfl
    · simp [zero, Numeral.chars]
  · have rank := Decimal.rank_shortest (of_decide_eq_true finite)
    have nonzero : (Decimal.shortest x.rank).coefficient ≠ 0 := by
      intro none
      rw [Decimal.rank, if_pos none] at rank
      exact zero rank.symm
    obtain ⟨n, spells, chars⟩ := spells_positional s (Decimal.significant_trimmed nonzero)
      (Decimal.shortest x.rank).trimmed.2
    refine ⟨n, spells.writes finite ((Decimal.rank_trimmed _).trans rank), ?_⟩
    simp [zero, chars]

end RegionalTables
