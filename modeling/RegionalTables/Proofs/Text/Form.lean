import RegionalTables.Proofs.Text.Split
import RegionalTables.Proofs.Text.Utf8
import RegionalTables.Text.Form

/-! Form encoding undone. Each byte is read back from what it is escaped to, whatever follows, and what it
is escaped to holds no separator. So the pairs are read back from their encoded form, and empty segments
among them count for nothing. -/
namespace RegionalTables.Text

namespace Percent

theorem decode_cons_of_ne {a : UInt8} (other : a ≠ 0x25) (bytes : List UInt8) :
    decode (a :: bytes) = a :: decode bytes := by
  match bytes with
  | [] | [_] => simp [decode]
  | _ :: _ :: _ => rw [decode, if_neg other]

theorem decode_of_hex {a b high low : UInt8} (first : hexValue? a = some high)
    (second : hexValue? b = some low) (bytes : List UInt8) :
    decode (0x25 :: a :: b :: bytes) = (high * 16 + low) :: decode bytes := by
  simp [decode, first, second]

end Percent

namespace Form

/-- The characters that names and values are encoded in. -/
def isWritten (c : Char) : Bool :=
  c.toNat < 0x80 && (isSafe c.toNat.toUInt8 || c == '+' || c == '%')

theorem hexDigit_of_lt {n : UInt8} (small : n < 16) :
    Percent.hexValue? (Percent.hexDigit n).toNat.toUInt8 = some n ∧
      isWritten (Percent.hexDigit n) = true ∧ (Percent.hexDigit n).toNat.toUInt8 ≠ 0x2B := by
  have each : ∀ n < 16, Percent.hexValue? (Percent.hexDigit n.toUInt8).toNat.toUInt8 = some n.toUInt8 ∧
      isWritten (Percent.hexDigit n.toUInt8) = true ∧
      (Percent.hexDigit n.toUInt8).toNat.toUInt8 ≠ 0x2B := by
    decide
  have same : n.toNat.toUInt8 = n := UInt8.ofNat_toNat
  simpa only [same] using each n.toNat small

theorem toNat_ofNat_of_lt {n : Nat} (ascii : n < 0x80) : (Char.ofNat n).toNat = n := by
  have valid : n.isValidChar := .inl (by omega)
  rw [Char.ofNat, dif_pos valid]
  rfl

theorem of_isSafe {b : UInt8} (safe : isSafe b = true) :
    b.toNat < 0x80 ∧ b ≠ 0x2B ∧ b ≠ 0x25 := by
  refine ⟨?_, ?_, ?_⟩
  · simp [isSafe, UInt8.le_iff_toNat_le, ← UInt8.toNat_inj] at safe
    omega
  · rintro rfl
    contradiction
  · rintro rfl
    contradiction

/-- The halves of a byte. -/
theorem halves (b : UInt8) : b / 16 < 16 ∧ b % 16 < 16 ∧ b / 16 * 16 + b % 16 = b := by
  have bound : b.toNat < 256 := b.toNat_lt
  refine ⟨?_, UInt8.mod_lt b (by decide), ?_⟩
  · rw [UInt8.lt_iff_toNat_lt, UInt8.toNat_div]
    exact Nat.div_lt_of_lt_mul bound
  · rw [← UInt8.toNat_inj]
    simp only [UInt8.toNat_add, UInt8.toNat_mul, UInt8.toNat_div, UInt8.toNat_mod, UInt8.reduceToNat]
    omega

theorem isWritten_of_mem_escapeByte {b : UInt8} {c : Char} (own : c ∈ escapeByte b) :
    isWritten c = true := by
  rw [escapeByte] at own
  split at own
  · next safe =>
    obtain rfl := List.mem_singleton.1 own
    have ascii := (of_isSafe safe).1
    have same : b.toNat.toUInt8 = b := UInt8.ofNat_toNat
    simp [isWritten, toNat_ofNat_of_lt ascii, same, safe, ascii]
  · split at own
    · obtain rfl := List.mem_singleton.1 own
      decide
    · simp only [Percent.escape, List.mem_cons, List.not_mem_nil, or_false] at own
      rcases own with rfl | rfl | rfl
      · decide
      · exact (hexDigit_of_lt (halves b).1).2.1
      · exact (hexDigit_of_lt (halves b).2.1).2.1

theorem not_mem_encodeText {c : Char} (other : isWritten c = false) (s : String) :
    c ∉ encodeText s := by
  intro member
  obtain ⟨b, _, own⟩ := List.mem_flatMap.1 member
  rw [isWritten_of_mem_escapeByte own] at other
  contradiction

theorem encode_ascii {cs : List Char} (ascii : ∀ c ∈ cs, c.toNat < 0x80) :
    Utf8.encode cs = cs.map fun c => c.toNat.toUInt8 := by
  induction cs with
  | nil => rfl
  | cons c cs ih =>
    obtain ⟨first, rest⟩ := List.forall_mem_cons.1 ascii
    rw [Utf8.encode_cons, Utf8.encodeChar_ascii first, ih rest]
    rfl

/-- A byte is read back, and what follows it is read for itself. -/
theorem unescape_escapeByte (b : UInt8) (rest : List UInt8) :
    unescape (Utf8.encode (escapeByte b) ++ rest) = b :: unescape rest := by
  have ascii : ∀ c ∈ escapeByte b, c.toNat < 0x80 := fun c own => by
    have written := isWritten_of_mem_escapeByte own
    rw [isWritten, Bool.and_eq_true, decide_eq_true_eq] at written
    exact written.1
  rw [encode_ascii ascii, escapeByte]
  split
  · next safe =>
    obtain ⟨small, noPlus, noPercent⟩ := of_isSafe safe
    have same : (Char.ofNat b.toNat).toNat.toUInt8 = b := by
      rw [toNat_ofNat_of_lt small]
      exact UInt8.ofNat_toNat
    simp only [List.map_cons, List.map_nil, same, unescape, List.cons_append, List.nil_append,
      plusToSpace, if_neg noPlus]
    exact Percent.decode_cons_of_ne noPercent _
  · split
    · next space =>
      subst space
      exact Percent.decode_cons_of_ne (by decide) _
    · obtain ⟨high, low, whole⟩ := halves b
      obtain ⟨first, _, noPlus⟩ := hexDigit_of_lt high
      obtain ⟨second, _, noPlus'⟩ := hexDigit_of_lt low
      have percent : plusToSpace '%'.toNat.toUInt8 = 0x25 := by decide
      have digit {c : Char} (other : c.toNat.toUInt8 ≠ 0x2B) :
          plusToSpace c.toNat.toUInt8 = c.toNat.toUInt8 := if_neg other
      simp only [Percent.escape, unescape, List.map_cons, List.map_nil, List.cons_append,
        List.nil_append, percent, digit noPlus, digit noPlus']
      rw [Percent.decode_of_hex first second, whole]

theorem unescape_flatMap (bytes : List UInt8) :
    unescape (Utf8.encode (bytes.flatMap escapeByte)) = bytes := by
  induction bytes with
  | nil => rfl
  | cons b bytes ih => rw [List.flatMap_cons, Utf8.encode_append, unescape_escapeByte, ih]

theorem decodeText_encodeText (s : String) : decodeText (encodeText s) = s := by
  have chars : Utf8.decodeLossy (Utf8.encode s.toList) = s.toList := by
    simp [Utf8.decodeLossy, Utf8.decode_encode, Function.comp_def]
  rw [decodeText, encodeText, unescape_flatMap, Utf8.lossyText, chars, String.ofList_toList]

/-- A pair in its encoded form. -/
def pairText (p : String × String) : List Char := encodeText p.1 ++ '=' :: encodeText p.2

theorem encode_eq (pairs : List (String × String)) : encode pairs = ['&'].intercalate (pairs.map pairText) :=
  rfl

theorem decodePair_pairText (p : String × String) : decodePair (pairText p) = p := by
  rw [decodePair, pairText, cut?_append (not_mem_encodeText (by decide) _)]
  simp [decodeText_encodeText]

theorem not_mem_pairText {c : Char} (other : isWritten c = false) (apart : c ≠ '=')
    (p : String × String) : c ∉ pairText p := by
  simp [pairText, not_mem_encodeText other, apart]

section

variable {segments : List (List Char)} {pairs : List (String × String)}
  (written : segments.filter (!·.isEmpty) = pairs.map pairText)

include written

/-- Segments are empty or hold a pair. -/
theorem not_mem_segment {c : Char} (other : isWritten c = false) (apart : c ≠ '=') :
    ∀ segment ∈ segments, c ∉ segment := by
  intro segment member inside
  have filled : segment ∈ segments.filter (!·.isEmpty) := by
    refine List.mem_filter.2 ⟨member, ?_⟩
    cases segment with
    | nil => contradiction
    | cons => rfl
  rw [written] at filled
  obtain ⟨p, _, rfl⟩ := List.mem_map.1 filled
  exact not_mem_pairText other apart p inside

theorem decode_intercalate : decode (['&'].intercalate segments) = pairs := by
  have pieces : (split '&' (['&'].intercalate segments)).filter (!·.isEmpty) =
      segments.filter (!·.isEmpty) := by
    cases segments with
    | nil => rfl
    | cons segment others =>
      rw [split_intercalate_of_not_mem (by simp) (not_mem_segment written (by decide) (by decide))]
  rw [decode, pieces, written, List.map_map]
  simp [Function.comp_def, decodePair_pairText]

end

end Form

end RegionalTables.Text
