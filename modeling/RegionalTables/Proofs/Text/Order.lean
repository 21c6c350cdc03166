import Mathlib.Algebra.Group.Nat.Defs
import Mathlib.Data.List.Lex
import Mathlib.Data.String.Basic
import Mathlib.Order.Monotone.Basic
import RegionalTables.Proofs.Text.Utf8

/-! The order of texts. By characters or by bytes they are ordered alike, and where two texts are
digits of one length their order is that of the numbers they write. -/
namespace RegionalTables.Text

/-- The order of the program is by characters, this one by bytes. -/
def bytesBelow (s t : String) : Prop := Utf8.encode s.toList < Utf8.encode t.toList

/-- The number that decimal digits write. -/
def decimal (s : String) : Nat := Nat.ofDigitChars 10 s.toList 0

/-- The text is so many decimal digits. -/
structure Digits (length : Nat) (s : String) : Prop where
  length : s.toList.length = length
  digits : ∀ c ∈ s.toList, c.isDigit = true

instance (length : Nat) (s : String) : Decidable (Digits length s) :=
  decidable_of_iff (s.toList.length = length ∧ s.toList.all Char.isDigit = true)
    ⟨fun ⟨whole, digits⟩ => ⟨whole, List.all_eq_true.1 digits⟩,
      fun ⟨whole, digits⟩ => ⟨whole, List.all_eq_true.2 digits⟩⟩

namespace Utf8

/-- Bytes are compared as the numbers they were made from. -/
theorem toUInt8_cons_lt {a b : Nat} (small : a < 256) (small' : b < 256) {l l' : List UInt8} :
    a.toUInt8 :: l < b.toUInt8 :: l' ↔ a < b ∨ a = b ∧ l < l' := by
  rw [List.cons_lt_cons_iff, toUInt8_lt small, toUInt8_eq small, toNat_toUInt8 small']

/-- Longer forms have greater lead bytes, and within a form the bytes are digits to the base 64. So
the bytes of a lesser character are less before the shorter of the two ends. -/
theorem encodeChar_append_lt {c d : Char} (less : c < d) (l l' : List UInt8) :
    encodeChar c ++ l < encodeChar d ++ l' := by
  have valid := toNat_valid c
  have valid' := toNat_valid d
  have below : c.toNat < d.toNat := less
  unfold encodeChar
  generalize c.toNat = n at valid below
  generalize d.toNat = m at valid' below
  simp only
  repeat' split
  all_goals
    simp only [List.cons_append, List.nil_append]
    repeat rw [toUInt8_cons_lt (by omega) (by omega)]
    omega

/-- A lesser text has lesser bytes. -/
theorem encode_lt_of_lt {cs ds : List Char} (less : cs < ds) : encode cs < encode ds := by
  induction less with
  | nil =>
    obtain ⟨lead, tail, bytes, _⟩ := next_encodeChar ‹Char›
    rw [encode_cons, bytes]
    exact List.nil_lt_cons ..
  | cons _ ih =>
    rw [encode_cons, encode_cons]
    exact List.append_left_lt ih
  | rel less =>
    rw [encode_cons, encode_cons]
    exact encodeChar_append_lt less ..

theorem encode_lt_iff {cs ds : List Char} : encode cs < encode ds ↔ cs < ds := by
  refine ⟨fun below => ?_, encode_lt_of_lt⟩
  obtain less | rfl | greater := lt_trichotomy cs ds
  · exact less
  · exact absurd below (List.lt_irrefl _)
  · exact absurd below (List.lt_asymm (encode_lt_of_lt greater))

end Utf8

theorem bytesBelow_iff {s t : String} : bytesBelow s t ↔ s < t := by
  rw [bytesBelow, Utf8.encode_lt_iff, String.lt_iff_toList_lt]

theorem not_bytesBelow_of_isLE {s t : String} (le : (compare s t).isLE = true) : ¬ bytesBelow t s := by
  rw [bytesBelow_iff, ← compare_lt_iff_lt, ← Std.OrientedCmp.gt_iff_lt]
  intro greater
  rw [greater] at le
  contradiction

/-- A number is less than the power of its number of digits. -/
theorem ofDigitChars_lt {cs : List Char} (digits : ∀ c ∈ cs, c.isDigit = true) :
    Nat.ofDigitChars 10 cs 0 < 10 ^ cs.length := by
  induction cs with
  | nil => decide
  | cons c cs ih =>
    obtain ⟨first, rest⟩ := List.forall_mem_cons.1 digits
    have bound := (Char.isDigit_iff_toNat.1 first).2
    have tail := ih rest
    rw [Nat.ofDigitChars_cons, Nat.ofDigitChars_eq_ofDigitChars_zero, List.length_cons, Nat.pow_succ,
      Nat.mul_zero, Nat.zero_add]
    have head : c.toNat - '0'.toNat ≤ 9 := Nat.sub_le_of_le_add bound
    have most := Nat.mul_le_mul_left (10 ^ cs.length) head
    omega

/-- The first digit that differs decides, as what follows it is less than its unit. -/
theorem ofDigitChars_lt_of_lt {cs ds : List Char} (less : cs < ds) (length : cs.length = ds.length)
    (digits : ∀ c ∈ cs, c.isDigit = true) (digits' : ∀ d ∈ ds, d.isDigit = true) :
    Nat.ofDigitChars 10 cs 0 < Nat.ofDigitChars 10 ds 0 := by
  induction less with
  | nil => simp at length
  | @cons c cs ds _ ih =>
    have rest := ih (Nat.succ.inj length) (List.forall_mem_cons.1 digits).2
      (List.forall_mem_cons.1 digits').2
    have same : cs.length = ds.length := Nat.succ.inj length
    rw [Nat.ofDigitChars_cons, Nat.ofDigitChars_cons, Nat.ofDigitChars_eq_ofDigitChars_zero,
      Nat.ofDigitChars_eq_ofDigitChars_zero (l := ds), same]
    omega
  | @rel c cs d ds less =>
    have same : cs.length = ds.length := Nat.succ.inj length
    obtain ⟨first, rest⟩ := List.forall_mem_cons.1 digits
    have low := (Char.isDigit_iff_toNat.1 first).1
    have below : c.toNat < d.toNat := less
    have tail := ofDigitChars_lt rest
    rw [Nat.ofDigitChars_cons, Nat.ofDigitChars_cons, Nat.ofDigitChars_eq_ofDigitChars_zero,
      Nat.ofDigitChars_eq_ofDigitChars_zero (l := ds), ← same, Nat.mul_zero, Nat.zero_add,
      Nat.zero_add]
    have head : c.toNat - '0'.toNat + 1 ≤ d.toNat - '0'.toNat := by omega
    have most := Nat.mul_le_mul_left (10 ^ cs.length) head
    rw [Nat.mul_succ] at most
    omega

/-- Digits of one length are ordered as the numbers they write. -/
theorem decimal_lt_iff {n : Nat} {s t : String} (left : Digits n s) (right : Digits n t) :
    decimal s < decimal t ↔ s < t := by
  have increasing : StrictMonoOn decimal {s | Digits n s} := by
    intro s left t right less
    exact ofDigitChars_lt_of_lt less (left.length.trans right.length.symm) left.digits right.digits
  exact increasing.lt_iff_lt left right

end RegionalTables.Text
