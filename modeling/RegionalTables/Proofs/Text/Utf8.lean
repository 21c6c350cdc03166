import RegionalTables.Json.Bytes

/-! UTF-8 read back: the bytes of a text are decoded to its characters, and no two texts have the
same bytes. -/
namespace RegionalTables.Text.Utf8

theorem toNat_toUInt8 {n : Nat} (small : n < 256) : n.toUInt8.toNat = n := by
  simp only [Nat.toUInt8, UInt8.toNat_ofNat']
  omega

theorem toUInt8_lt {a : UInt8} {n : Nat} (small : n < 256) : n.toUInt8 < a ↔ n < a.toNat := by
  rw [UInt8.lt_iff_toNat_lt, toNat_toUInt8 small]

theorem toUInt8_eq {a : UInt8} {n : Nat} (small : n < 256) : n.toUInt8 = a ↔ n = a.toNat := by
  rw [← UInt8.toNat_inj, toNat_toUInt8 small]

/-- A range of bytes is a range of numbers. -/
theorem range_toUInt8 {a b : UInt8} {n : Nat} (small : n < 256) :
    (a ≤ n.toUInt8 && n.toUInt8 ≤ b) = decide (a.toNat ≤ n ∧ n ≤ b.toNat) := by
  simp only [UInt8.le_iff_toNat_le, toNat_toUInt8 small, Bool.decide_and]

theorem isTail_toUInt8 {n : Nat} (low : 0x80 ≤ n) (high : n < 0xC0) : isTail n.toUInt8 = true := by
  rw [isTail, range_toUInt8 (by omega), decide_eq_true_eq]
  exact ⟨low, Nat.le_of_lt_succ high⟩

/-- Which second bytes are admitted, said of numbers. -/
theorem admits_toUInt8 {lead second : Nat} (leadSmall : lead < 256) (low : 0x80 ≤ second)
    (high : second < 0xC0) (short : lead = 0xE0 → 0xA0 ≤ second)
    (surrogate : lead = 0xED → second ≤ 0x9F) (long : lead = 0xF0 → 0x90 ≤ second)
    (beyond : lead = 0xF4 → second ≤ 0x8F) : admits lead.toUInt8 second.toUInt8 = true := by
  have small : second < 256 := by omega
  simp only [admits, toUInt8_eq leadSmall, range_toUInt8 small]
  split
  · next is => exact decide_eq_true ⟨short is, Nat.le_of_lt_succ high⟩
  · split
    · next is => exact decide_eq_true ⟨low, surrogate is⟩
    · split
      · next is => exact decide_eq_true ⟨long is, Nat.le_of_lt_succ high⟩
      · split
        · next is => exact decide_eq_true ⟨low, beyond is⟩
        · exact isTail_toUInt8 low high

theorem next_one {n : Nat} (small : n < 0x80) (rest : List UInt8) :
    next n.toUInt8 rest = (some (Char.ofNat n), rest) := by
  have byte : n < 256 := by omega
  have ascii : n.toUInt8 < 0x80 := (toUInt8_lt byte).2 small
  simp [next, ascii, toNat_toUInt8 byte]

theorem next_two {lead tail : Nat} (low : 0xC2 ≤ lead) (high : lead ≤ 0xDF) (tailLow : 0x80 ≤ tail)
    (tailHigh : tail < 0xC0) (rest : List UInt8) :
    next lead.toUInt8 (tail.toUInt8 :: rest) =
      (some (Char.ofNat ((lead - 0xC0) * 0x40 + (tail - 0x80))), rest) := by
  have byte : lead < 256 := by omega
  have notAscii : ¬ lead < 0x80 := by omega
  have tailByte : tail < 256 := by omega
  simp [next, toUInt8_lt byte, range_toUInt8 byte, notAscii, low, high,
    isTail_toUInt8 tailLow tailHigh, bits, toNat_toUInt8 byte, toNat_toUInt8 tailByte]

theorem next_three {lead second third : Nat} (low : 0xE0 ≤ lead) (high : lead ≤ 0xEF)
    (admitted : admits lead.toUInt8 second.toUInt8 = true) (secondByte : second < 256)
    (thirdLow : 0x80 ≤ third) (thirdHigh : third < 0xC0) (rest : List UInt8) :
    next lead.toUInt8 (second.toUInt8 :: third.toUInt8 :: rest) =
      (some (Char.ofNat ((lead - 0xE0) * 0x1000 + (second - 0x80) * 0x40 + (third - 0x80))),
        rest) := by
  have byte : lead < 256 := by omega
  have notAscii : ¬ lead < 0x80 := by omega
  have notTwo : ¬ lead ≤ 0xDF := by omega
  have thirdByte : third < 256 := by omega
  simp [next, toUInt8_lt byte, range_toUInt8 byte, notAscii, notTwo, low, high, admitted,
    isTail_toUInt8 thirdLow thirdHigh, bits, toNat_toUInt8 byte, toNat_toUInt8 secondByte,
    toNat_toUInt8 thirdByte]

theorem next_four {lead second third fourth : Nat} (low : 0xF0 ≤ lead) (high : lead ≤ 0xF4)
    (admitted : admits lead.toUInt8 second.toUInt8 = true) (secondByte : second < 256)
    (thirdLow : 0x80 ≤ third) (thirdHigh : third < 0xC0) (fourthLow : 0x80 ≤ fourth)
    (fourthHigh : fourth < 0xC0) (rest : List UInt8) :
    next lead.toUInt8 (second.toUInt8 :: third.toUInt8 :: fourth.toUInt8 :: rest) =
      (some (Char.ofNat ((lead - 0xF0) * 0x40000 + (second - 0x80) * 0x1000 +
        (third - 0x80) * 0x40 + (fourth - 0x80))), rest) := by
  have byte : lead < 256 := by omega
  have notAscii : ¬ lead < 0x80 := by omega
  have notTwo : ¬ lead ≤ 0xDF := by omega
  have notThree : ¬ lead ≤ 0xEF := by omega
  have thirdByte : third < 256 := by omega
  have fourthByte : fourth < 256 := by omega
  simp [next, toUInt8_lt byte, range_toUInt8 byte, notAscii, notTwo, notThree, low, high, admitted,
    isTail_toUInt8 thirdLow thirdHigh, isTail_toUInt8 fourthLow fourthHigh, bits,
    toNat_toUInt8 byte, toNat_toUInt8 secondByte, toNat_toUInt8 thirdByte, toNat_toUInt8 fourthByte]

/-- Characters are no surrogates and end at 10FFFF. -/
theorem toNat_valid (c : Char) : c.toNat < 0xD800 ∨ 0xDFFF < c.toNat ∧ c.toNat < 0x110000 :=
  c.valid

/-- The bytes of a character are read as this character, whatever follows. -/
theorem next_encodeChar (c : Char) : ∃ lead tail, encodeChar c = lead :: tail ∧
    ∀ rest, next lead (tail ++ rest) = (some c, rest) := by
  have valid := toNat_valid c
  have whole : Char.ofNat c.toNat = c := Char.ofNat_toNat c
  unfold encodeChar
  generalize c.toNat = n at valid whole
  simp only
  split
  · next one =>
    refine ⟨_, _, rfl, fun rest => ?_⟩
    rw [List.nil_append, next_one one, whole]
  · split
    · next notOne two =>
      refine ⟨_, _, rfl, fun rest => ?_⟩
      rw [List.cons_append, List.nil_append,
        next_two (by omega) (by omega) (by omega) (by omega)]
      have same : (0xC0 + n / 0x40 - 0xC0) * 0x40 + (0x80 + n % 0x40 - 0x80) = n := by omega
      rw [same, whole]
    · split
      · next notOne notTwo three =>
        refine ⟨_, _, rfl, fun rest => ?_⟩
        have admitted : admits (0xE0 + n / 0x1000).toUInt8 (0x80 + n / 0x40 % 0x40).toUInt8 = true :=
          admits_toUInt8 (by omega) (by omega) (by omega) (by omega) (by omega) (by omega) (by omega)
        simp only [List.cons_append, List.nil_append]
        rw [next_three (by omega) (by omega) admitted (by omega) (by omega) (by omega)]
        have same : (0xE0 + n / 0x1000 - 0xE0) * 0x1000 + (0x80 + n / 0x40 % 0x40 - 0x80) * 0x40 +
            (0x80 + n % 0x40 - 0x80) = n := by omega
        rw [same, whole]
      · next notOne notTwo notThree =>
        refine ⟨_, _, rfl, fun rest => ?_⟩
        have admitted :
            admits (0xF0 + n / 0x40000).toUInt8 (0x80 + n / 0x1000 % 0x40).toUInt8 = true :=
          admits_toUInt8 (by omega) (by omega) (by omega) (by omega) (by omega) (by omega) (by omega)
        simp only [List.cons_append, List.nil_append]
        rw [next_four (by omega) (by omega) admitted (by omega) (by omega) (by omega) (by omega)
          (by omega)]
        have same : (0xF0 + n / 0x40000 - 0xF0) * 0x40000 +
            (0x80 + n / 0x1000 % 0x40 - 0x80) * 0x1000 + (0x80 + n / 0x40 % 0x40 - 0x80) * 0x40 +
            (0x80 + n % 0x40 - 0x80) = n := by omega
        rw [same, whole]

theorem encode_cons (c : Char) (cs : List Char) : encode (c :: cs) = encodeChar c ++ encode cs :=
  List.flatMap_cons

theorem encode_append (cs ds : List Char) : encode (cs ++ ds) = encode cs ++ encode ds :=
  List.flatMap_append

theorem encode_singleton (c : Char) : encode [c] = encodeChar c := List.flatMap_singleton _ _

theorem encodeChar_ne_nil (c : Char) : encodeChar c ≠ [] := by
  obtain ⟨lead, tail, bytes, _⟩ := next_encodeChar c
  rw [bytes]
  exact List.cons_ne_nil lead tail

theorem encodeChar_ascii {d : Char} (ascii : d.toNat < 0x80) :
    encodeChar d = [d.toNat.toUInt8] :=
  if_pos ascii

/-- The byte of a character below 80 is in no other character. -/
theorem not_mem_encodeChar {c d : Char} (ascii : d.toNat < 0x80) (apart : c ≠ d) :
    d.toNat.toUInt8 ∉ encodeChar c := by
  have other : c.toNat ≠ d.toNat := fun same => apart (Char.toNat_inj.1 same)
  have valid := toNat_valid c
  have byte : d.toNat.toUInt8.toNat = d.toNat := toNat_toUInt8 (by omega)
  simp only [encodeChar]
  split
  · simp only [List.mem_singleton, ← UInt8.toNat_inj, byte]
    rw [toNat_toUInt8 (by omega)]
    omega
  · repeat' split
    all_goals
      simp only [List.mem_cons, List.not_mem_nil, or_false, ← UInt8.toNat_inj, byte]
      repeat rw [toNat_toUInt8 (by omega)]
      omega

theorem decodeFrom_encode {fuel : Nat} {cs : List Char} (enough : (encode cs).length ≤ fuel)
    (done : List (Option Char)) :
    decodeFrom fuel done (encode cs) = done.reverse ++ cs.map some := by
  induction cs generalizing fuel done with
  | nil => cases fuel <;> simp [encode, decodeFrom]
  | cons c cs ih =>
    obtain ⟨lead, tail, bytes, read⟩ := next_encodeChar c
    have split : encode (c :: cs) = lead :: (tail ++ encode cs) := by
      simp [encode, bytes]
    rw [split] at enough ⊢
    cases fuel with
    | zero => simp at enough
    | succ fuel =>
      have shorter : (encode cs).length ≤ fuel := by
        simp only [List.length_cons, List.length_append] at enough
        omega
      simp [decodeFrom, read, ih shorter]

theorem decode_encode (cs : List Char) : decode (encode cs) = cs.map some := by
  rw [decode, decodeFrom_encode (Nat.le_refl _)]
  rfl

/-- The bytes of a text are valid. -/
theorem decode?_encode (cs : List Char) : decode? (encode cs) = some cs := by
  simp [decode?, decode_encode]

/-- Texts with the same bytes are the same. -/
theorem encode_injective {cs ds : List Char} (same : encode cs = encode ds) : cs = ds := by
  have decoded : cs.map some = ds.map some := by
    rw [← decode_encode, same, decode_encode]
  exact (List.map_inj_right fun _ _ => Option.some.inj).1 decoded

end RegionalTables.Text.Utf8

namespace RegionalTables.Json.Tree

theorem charsOf_encode (cs : List Char) : charsOf (Text.Utf8.encode cs) = cs := by
  rw [charsOf, Text.Utf8.decode_encode, List.flatMap_map]
  exact List.flatMap_singleton' cs

end RegionalTables.Json.Tree
