import RegionalTables.Proofs.Json.Document

/-! Compact text keeps to one line: it has no control character, since strings escape theirs and
nothing else is written with one. -/
namespace RegionalTables.Json

open Binary64

/-- No control character stands in the text. -/
def Uncontrolled (cs : List Char) : Prop := ∀ c ∈ cs, ¬ c.toNat < 0x20

instance (cs : List Char) : Decidable (Uncontrolled cs) :=
  List.decidableBAll (fun c : Char => ¬ c.toNat < 0x20) cs

namespace Uncontrolled

theorem append {cs ds : List Char} (front : Uncontrolled cs) (back : Uncontrolled ds) :
    Uncontrolled (cs ++ ds) :=
  List.forall_mem_append.2 ⟨front, back⟩

theorem cons {c : Char} {cs : List Char} (first : Uncontrolled [c]) (rest : Uncontrolled cs) :
    Uncontrolled (c :: cs) :=
  first.append rest

theorem not_mem {cs : List Char} (plain : Uncontrolled cs) {c : Char} (control : c.toNat < 0x20) :
    c ∉ cs :=
  fun member => plain c member control

theorem of_digits {cs : List Char} (digits : ∀ c ∈ cs, isDigit c = true) : Uncontrolled cs := by
  intro c member control
  have digit := digits c member
  simp only [isDigit, Bool.and_eq_true, decide_eq_true_eq, Char.le_def, UInt32.le_iff_toNat_le]
    at digit
  have low : ('0' : Char).val.toNat = 0x30 := rfl
  have same : c.val.toNat = c.toNat := rfl
  omega

end Uncontrolled

theorem uncontrolled_exponentText (e : Int) :
    Uncontrolled (NumberStyle.document.exponentText e) := by
  have digits : Uncontrolled (Nat.toDigits 10 e.natAbs) :=
    .of_digits Decimal.isDigit_of_mem_toDigits
  refine .append (.cons (by decide) ?_) digits
  by_cases negative : e < 0
  · rw [if_pos negative]
    decide
  · rw [if_neg negative]
    decide

theorem uncontrolled_numeral {n : Numeral} (formed : n.WellFormed) :
    Uncontrolled (n.chars .document) := by
  refine .append (.of_digits formed.digit) (.append ?_ ?_)
  · cases written : n.fraction with
    | none => exact fun c member => by contradiction
    | some digits => exact .cons (by decide) (.of_digits (formed.fraction digits written).2)
  · cases n.power with
    | none => exact fun c member => by contradiction
    | some e => exact uncontrolled_exponentText e

theorem uncontrolled_number {n : Number} (valid : n.Valid) : Uncontrolled n.chars := by
  cases n with
  | integer i =>
    have digits : Uncontrolled (Nat.toDigits 10 i.natAbs) :=
      .of_digits Decimal.isDigit_of_mem_toDigits
    rw [Number.chars, integerChars]
    by_cases negative : i < 0
    · rw [if_pos negative]
      exact .cons (by decide) digits
    · rw [if_neg negative]
      exact digits
  | float x =>
    have finite : x.isFinite = true := valid
    obtain ⟨n, writes, chars⟩ := exists_writes .document finite
    rw [Number.chars, if_pos finite, chars]
    refine .append ?_ (uncontrolled_numeral writes.toWellFormed)
    cases x.negative <;> decide

theorem uncontrolled_hexDigit {n : Nat} (small : n < 16) : Uncontrolled [hexDigit n] := by
  have all : ∀ n ∈ List.range 16, Uncontrolled [hexDigit n] := by decide
  exact all n (List.mem_range.2 small)

theorem uncontrolled_escapeChar (c : Char) : Uncontrolled (escapeChar c) := by
  unfold escapeChar
  repeat' split
  any_goals decide
  · next control =>
    refine .append (by decide : Uncontrolled ['\\', 'u', '0', '0']) (.cons ?_ ?_)
    · exact uncontrolled_hexDigit (by omega)
    · exact uncontrolled_hexDigit (by omega)
  · next plain =>
    intro d member
    rw [List.mem_singleton.1 member]
    exact plain

theorem uncontrolled_quoted (s : String) : Uncontrolled (quoted s) := by
  refine .append (.cons (by decide) ?_) (by decide)
  intro c member
  obtain ⟨d, _, escape⟩ := List.mem_flatMap.1 member
  exact uncontrolled_escapeChar d c escape

namespace Value

mutual

theorem uncontrolled_chars {v : Value} (writable : v.Writable) : Uncontrolled v.chars := by
  match v with
  | .null | .bool true | .bool false | .array [] | .object [] => exact (by decide)
  | .number n => exact uncontrolled_number writable
  | .string s => exact uncontrolled_quoted s
  | .array (v :: items) =>
    exact .append (.cons (by decide) (uncontrolled_chars writable.1))
      (uncontrolled_itemsTail writable.2)
  | .object ((k, v) :: members) =>
    exact .append (.append (.cons (by decide) (uncontrolled_quoted k))
      (.cons (by decide) (uncontrolled_chars writable.1))) (uncontrolled_membersTail writable.2)

theorem uncontrolled_itemsTail {items : List Value} (writable : WritableItems items) :
    Uncontrolled (itemsTail items) := by
  match items with
  | [] => decide
  | v :: rest =>
    exact .append (.cons (by decide) (uncontrolled_chars writable.1))
      (uncontrolled_itemsTail writable.2)

theorem uncontrolled_membersTail {members : List (String × Value)}
    (writable : WritableMembers members) : Uncontrolled (membersTail members) := by
  match members with
  | [] => decide
  | (k, v) :: rest =>
    exact .append (.append (.cons (by decide) (uncontrolled_quoted k))
      (.cons (by decide) (uncontrolled_chars writable.1))) (uncontrolled_membersTail writable.2)

end

end Value

namespace Document

theorem uncontrolled_chars (d : Document) : Uncontrolled d.value.chars :=
  Value.uncontrolled_chars (Value.writable_of_canonical d.canonical)

end Document

end RegionalTables.Json
