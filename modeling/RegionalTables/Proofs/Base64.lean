import RegionalTables.Base64
import RegionalTables.Proofs.Text.Utf8

/-! Base64 read back: what was encoded is decoded to the same bytes. -/
namespace RegionalTables.Base64

theorem sextet?_symbol {n : Nat} (small : n < 0x40) : sextet? (symbol n) = some n := by
  have all : ∀ n ∈ List.range 0x40, sextet? (symbol n) = some n := by decide
  exact all n (List.mem_range.2 small)

/-- Padding is no symbol. -/
theorem symbol_ne_padding {n : Nat} (small : n < 0x40) : symbol n ≠ '=' := by
  intro same
  have digit := sextet?_symbol small
  rw [same] at digit
  have none : sextet? '=' = none := by decide
  simp [none] at digit

theorem number?_symbols (digits : List Nat) (small : ∀ n ∈ digits, n < 0x40) :
    number? (digits.map symbol) = some (digits.foldl (fun n digit => n * 0x40 + digit) 0) := by
  suffices ∀ start, (digits.map symbol).foldl
      (fun n c => do return (← n) * 0x40 + (← sextet? c)) (some start) =
        some (digits.foldl (fun n digit => n * 0x40 + digit) start) from this 0
  induction digits with
  | nil => simp
  | cons digit digits ih =>
    intro start
    obtain ⟨first, others⟩ := List.forall_mem_cons.1 small
    rw [List.map_cons, List.foldl_cons, List.foldl_cons, sextet?_symbol first]
    exact ih others _

theorem encodeFrom_append (done front : List Char) (bytes : List UInt8) :
    encodeFrom (done ++ front) bytes = front.reverse ++ encodeFrom done bytes := by
  fun_induction encodeFrom done bytes with
  | case1 => simp [encodeFrom]
  | case2 => simp [encodeFrom]
  | case3 => simp [encodeFrom]
  | case4 done a b c rest ih =>
    rw [encodeFrom, ← List.append_assoc]
    exact ih

theorem encode_group (a b c : UInt8) (rest : List UInt8) :
    encode (a :: b :: c :: rest) = group a b c ++ encode rest := by
  have first := encodeFrom_append [] (group a b c).reverse rest
  rw [List.reverse_reverse] at first
  rw [encode, encodeFrom, List.append_nil]
  exact first

/-- The number of three bytes. -/
def packed (a b c : UInt8) : Nat := a.toNat * 0x10000 + b.toNat * 0x100 + c.toNat

theorem packed_lt (a b c : UInt8) : packed a b c < 0x1000000 := by
  have := a.toNat_lt
  have := b.toNat_lt
  have := c.toNat_lt
  unfold packed
  omega

theorem bytesOf_packed (a b c : UInt8) : bytesOf 3 (packed a b c) = [a, b, c] := by
  have smallA := a.toNat_lt
  have smallB := b.toNat_lt
  have smallC := c.toNat_lt
  have first : packed a b c / 0x10000 = a.toNat := by unfold packed; omega
  have second : packed a b c / 0x100 % 0x100 = b.toNat := by unfold packed; omega
  have third : packed a b c % 0x100 = c.toNat := by unfold packed; omega
  simp [bytesOf, first, second, third, Nat.toUInt8]

/-- The four symbols of a number of 24 bits. -/
def symbols (n : Nat) : List Char :=
  [symbol (n / 0x40000), symbol (n / 0x1000 % 0x40), symbol (n / 0x40 % 0x40), symbol (n % 0x40)]

theorem group_eq (a b c : UInt8) : group a b c = symbols (packed a b c) := rfl

theorem decodeFrom?_symbols {n : Nat} (small : n < 0x1000000) (done : List UInt8)
    (rest : List Char) : decodeFrom? done (symbols n ++ rest) =
      decodeFrom? ((bytesOf 3 n).reverse ++ done) rest := by
  have number := number?_symbols [n / 0x40000, n / 0x1000 % 0x40, n / 0x40 % 0x40, n % 0x40]
    (by simp; omega)
  have whole : (((0 * 0x40 + n / 0x40000) * 0x40 + n / 0x1000 % 0x40) * 0x40 + n / 0x40 % 0x40) * 0x40
      + n % 0x40 = n := by omega
  simp only [List.map_cons, List.map_nil, List.foldl_cons, List.foldl_nil, whole] at number
  have last : symbol (n % 0x40) ≠ '=' := symbol_ne_padding (by omega)
  simp [symbols, decodeFrom?, last, number]

/-- A single byte is written with two symbols. -/
theorem decodeFrom?_encode_one (done : List UInt8) (a : UInt8) :
    decodeFrom? done (encode [a]) = some (done.reverse ++ [a]) := by
  obtain ⟨n, same⟩ : ∃ n, packed a 0 0 = n := ⟨_, rfl⟩
  have start : n = a.toNat * 0x10000 := by simp [← same, packed]
  have small := a.toNat_lt
  have number := number?_symbols [n / 0x40000, n / 0x1000 % 0x40] (by simp; omega)
  have whole : (0 * 0x40 + n / 0x40000) * 0x40 + n / 0x1000 % 0x40 = n / 0x1000 := by omega
  have back : n / 0x1000 * 0x1000 = n := by omega
  simp only [List.map_cons, List.map_nil, List.foldl_cons, List.foldl_nil, whole] at number
  have even : n / 0x1000 % 0x10 = 0 := by omega
  have bytes : bytesOf 1 n = [a] := by
    have all := bytesOf_packed a 0 0
    rw [same] at all
    exact congrArg (List.take 1) all
  simp [encode, encodeFrom, group_eq, symbols, same, decodeFrom?, number, even, back, bytes]

/-- Two bytes are written with three symbols. -/
theorem decodeFrom?_encode_two (done : List UInt8) (a b : UInt8) :
    decodeFrom? done (encode [a, b]) = some (done.reverse ++ [a, b]) := by
  obtain ⟨n, same⟩ : ∃ n, packed a b 0 = n := ⟨_, rfl⟩
  have start : n = a.toNat * 0x10000 + b.toNat * 0x100 := by simp [← same, packed]
  have smallA := a.toNat_lt
  have smallB := b.toNat_lt
  have number := number?_symbols [n / 0x40000, n / 0x1000 % 0x40, n / 0x40 % 0x40]
    (by simp; omega)
  have whole : ((0 * 0x40 + n / 0x40000) * 0x40 + n / 0x1000 % 0x40) * 0x40 + n / 0x40 % 0x40 =
      n / 0x40 := by omega
  have back : n / 0x40 * 0x40 = n := by omega
  have even : n / 0x40 % 0x4 = 0 := by omega
  simp only [List.map_cons, List.map_nil, List.foldl_cons, List.foldl_nil, whole] at number
  have third : symbol (n / 0x40 % 0x40) ≠ '=' := symbol_ne_padding (by omega)
  have bytes : bytesOf 2 n = [a, b] := by
    have all := bytesOf_packed a b 0
    rw [same] at all
    exact congrArg (List.take 2) all
  simp [encode, encodeFrom, group_eq, symbols, same, decodeFrom?, number, even, back, bytes]

theorem decodeFrom?_encode (done bytes : List UInt8) :
    decodeFrom? done (encode bytes) = some (done.reverse ++ bytes) := by
  match bytes with
  | [] => simp [encode, encodeFrom, decodeFrom?]
  | [a] => exact decodeFrom?_encode_one done a
  | [a, b] => exact decodeFrom?_encode_two done a b
  | a :: b :: c :: rest =>
    rw [encode_group, group_eq, decodeFrom?_symbols (packed_lt a b c), bytesOf_packed,
      decodeFrom?_encode]
    simp
termination_by bytes.length

/-- What was encoded is read back. -/
theorem decode?_encode (bytes : List UInt8) : decode? (encode bytes) = some bytes := by
  rw [decode?, decodeFrom?_encode]
  rfl

end RegionalTables.Base64
