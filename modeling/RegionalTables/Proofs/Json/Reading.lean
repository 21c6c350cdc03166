import RegionalTables.Proofs.Json.Number

/-! JSON text read back. The compact text of a value, whose numbers all have a written form, is read
as the tree of this value. -/
namespace RegionalTables.Json

open RegionalTables.Json.Tree

namespace Value

mutual

/-- All numbers in the value have a written form. -/
def Writable : Value → Prop
  | .number n => n.Valid
  | .array items => WritableItems items
  | .object members => WritableMembers members
  | _ => True

def WritableItems : List Value → Prop
  | [] => True
  | v :: rest => Writable v ∧ WritableItems rest

def WritableMembers : List (String × Value) → Prop
  | [] => True
  | (_, v) :: rest => Writable v ∧ WritableMembers rest

end

theorem writableItems_iff {items : List Value} : WritableItems items ↔ ∀ v ∈ items, Writable v := by
  induction items with
  | nil => simp [WritableItems]
  | cons v rest ih => simp [WritableItems, ih]

theorem writableMembers_iff {members : List (String × Value)} :
    WritableMembers members ↔ ∀ m ∈ members, Writable m.2 := by
  induction members with
  | nil => simp [WritableMembers]
  | cons m rest ih => obtain ⟨k, v⟩ := m; simp [WritableMembers, ih]

theorem writable_array_iff {items : List Value} :
    Writable (.array items) ↔ ∀ v ∈ items, Writable v := by
  rw [Writable, writableItems_iff]

theorem writable_object_iff {members : List (String × Value)} :
    Writable (.object members) ↔ ∀ m ∈ members, Writable m.2 := by
  rw [Writable, writableMembers_iff]

theorem writable_strings (l : List String) : (strings l).Writable := by
  rw [strings, writable_array_iff]
  intro v member
  obtain ⟨s, _, rfl⟩ := List.mem_map.1 member
  exact trivial

end Value

/-! Strings. -/

theorem hexValue?_hexDigit {n : Nat} (small : n < 16) : hexValue? (hexDigit n) = some n := by
  have all : ∀ n ∈ List.range 16, hexValue? (hexDigit n) = some n := by decide
  exact all n (List.mem_range.2 small)

theorem hex4?_control {n : Nat} (small : n < 0x20) (rest : List Char) :
    hex4? ('0' :: '0' :: hexDigit (n / 16) :: hexDigit (n % 16) :: rest) = some (n, rest) := by
  have zero : hexValue? '0' = some 0 := by decide
  have whole : ((0 * 16 + 0) * 16 + n / 16) * 16 + n % 16 = n := by omega
  simp [hex4?, zero, hexValue?_hexDigit (n := n / 16) (by omega),
    hexValue?_hexDigit (n := n % 16) (by omega)]
  omega

/-- A character is written plainly or by an escape, which stands for it. -/
theorem escapeChar_cases (c : Char) :
    (escapeChar c = [c] ∧ c ≠ '"' ∧ c ≠ '\\' ∧ ¬ c.toNat < 0x20) ∨
      ∃ code, escapeChar c = '\\' :: code ∧
        ∀ rest, escaped? (code ++ rest) = some (some c, rest) := by
  unfold escapeChar
  by_cases quote : c = '"'
  · exact .inr ⟨['"'], if_pos quote, fun rest => by rw [quote]; rfl⟩
  rw [if_neg quote]
  by_cases backslash : c = '\\'
  · exact .inr ⟨['\\'], if_pos backslash, fun rest => by rw [backslash]; rfl⟩
  rw [if_neg backslash]
  by_cases backspace : c = '\x08'
  · exact .inr ⟨['b'], if_pos backspace, fun rest => by rw [backspace]; rfl⟩
  rw [if_neg backspace]
  by_cases formFeed : c = '\x0c'
  · exact .inr ⟨['f'], if_pos formFeed, fun rest => by rw [formFeed]; rfl⟩
  rw [if_neg formFeed]
  by_cases lineFeed : c = '\n'
  · exact .inr ⟨['n'], if_pos lineFeed, fun rest => by rw [lineFeed]; rfl⟩
  rw [if_neg lineFeed]
  by_cases carriageReturn : c = '\r'
  · exact .inr ⟨['r'], if_pos carriageReturn, fun rest => by rw [carriageReturn]; rfl⟩
  rw [if_neg carriageReturn]
  by_cases tab : c = '\t'
  · exact .inr ⟨['t'], if_pos tab, fun rest => by rw [tab]; rfl⟩
  rw [if_neg tab]
  by_cases control : c.toNat < 0x20
  · refine .inr ⟨_, if_pos control, fun rest => ?_⟩
    have low : isLowSurrogate c.toNat = false := by
      simp only [isLowSurrogate, Bool.and_eq_false_iff, decide_eq_false_iff_not]
      omega
    have high : isHighSurrogate c.toNat = false := by
      simp only [isHighSurrogate, Bool.and_eq_false_iff, decide_eq_false_iff_not]
      omega
    simp [escaped?, hex4?_control control, escapedUnit, low, high]
  · rw [if_neg control]
    exact .inl ⟨rfl, quote, backslash, control⟩

theorem stringTail_escapeChar (fuel : Nat) (done : List Char) (c : Char) (rest : List Char) :
    stringTail (fuel + 1) (some done) (escapeChar c ++ rest) =
      stringTail fuel (some (c :: done)) rest := by
  rcases escapeChar_cases c with ⟨plain, quote, backslash, control⟩ | ⟨code, escape, denotes⟩
  · rw [plain]
    simp [stringTail, control]
  · rw [escape]
    simp [stringTail, denotes]

/-- The rest of a written string is read to its closing quote. -/
theorem stringTail_quoted {fuel : Nat} {cs : List Char} (enough : cs.length ≤ fuel)
    (done rest : List Char) :
    stringTail fuel (some done) (cs.flatMap escapeChar ++ '"' :: rest) =
      some (some (String.ofList (done.reverse ++ cs)), rest) := by
  induction cs generalizing fuel done with
  | nil => cases fuel <;> simp [stringTail]
  | cons c cs ih =>
    cases fuel with
    | zero => contradiction
    | succ fuel =>
      have shorter : cs.length ≤ fuel := Nat.le_of_succ_le_succ enough
      rw [List.flatMap_cons, List.append_assoc, stringTail_escapeChar, ih shorter]
      simp

theorem length_le_escaped (cs : List Char) : cs.length ≤ (cs.flatMap escapeChar).length := by
  induction cs with
  | nil => simp
  | cons c cs ih =>
    have pos : 0 < (escapeChar c).length := by
      rcases escapeChar_cases c with ⟨plain, _⟩ | ⟨code, escape, _⟩
      · simp [plain]
      · simp [escape]
    rw [List.flatMap_cons, List.length_append, List.length_cons]
    omega

theorem stringTail_text {fuel : Nat} {s : String} (enough : s.toList.length ≤ fuel)
    (rest : List Char) :
    stringTail fuel (some []) (s.toList.flatMap escapeChar ++ '"' :: rest) =
      some (some s, rest) := by
  rw [stringTail_quoted enough]
  simp

/-! Values. -/

theorem skip_cons {c : Char} {cs : List Char} (plain : isSpace c = false) :
    skip (c :: cs) = c :: cs := by
  simp [skip, plain]

theorem endsNumber_cons {c : Char} (mark : c = ',' ∨ c = ']' ∨ c = '}') (rest : List Char) :
    EndsNumber (c :: rest) := by
  intro d head
  obtain rfl := Option.some.inj head
  rcases mark with rfl | rfl | rfl <;> decide

theorem head_number {n : Number} (valid : n.Valid) :
    ∃ c cs, n.chars = c :: cs ∧ (c = '-' ∨ Binary64.isDigit c = true) := by
  have numeral : ∀ (negative : Bool) (n : Numeral), n.WellFormed → ∃ c cs,
      (if negative then ['-'] else []) ++ n.chars .document = c :: cs ∧
        (c = '-' ∨ Binary64.isDigit c = true) := by
    intro negative n formed
    cases negative with
    | true => exact ⟨'-', n.chars .document, rfl, .inl rfl⟩
    | false =>
      obtain ⟨tail, chars⟩ : ∃ tail, n.chars .document = n.whole ++ tail := ⟨_, rfl⟩
      cases whole : n.whole with
      | nil => exact absurd whole formed.nonempty
      | cons c others =>
        rw [whole] at chars
        exact ⟨c, others ++ tail, chars,
          .inr (formed.digit c (by rw [whole]; exact List.mem_cons_self))⟩
  cases n with
  | integer i =>
    have chars : (Numeral.ofNat i.natAbs).chars .document = Nat.toDigits 10 i.natAbs :=
      List.append_nil _
    obtain ⟨c, cs, text, head⟩ := numeral (decide (i < 0)) _ (Numeral.wellFormed_ofNat i.natAbs)
    refine ⟨c, cs, ?_, head⟩
    rw [← text, chars, Number.chars, integerChars]
    by_cases negative : i < 0 <;> simp [negative]
  | float x =>
    have finite : x.isFinite = true := valid
    obtain ⟨n, writes, chars⟩ := exists_writes .document finite
    rw [Number.chars, if_pos finite, chars]
    exact numeral x.negative n writes.toWellFormed

theorem readValue_number {fuel : Nat} {c : Char} {cs : List Char}
    (head : c = '-' ∨ Binary64.isDigit c = true) :
    readValue (fuel + 1) (c :: cs) =
      (readNumber (c :: cs)).map fun (n, rest) => (.number n, rest) := by
  have apart : ∀ d, d ≠ '-' → Binary64.isDigit d = false → c ≠ d := by
    intro d sign digit same
    rw [same] at head
    rcases head with head | head
    · exact sign head
    · simp [digit] at head
  have plain : isSpace c = false := by
    simp [isSpace, apart ' ' (by decide) (by decide), apart '\n' (by decide) (by decide),
      apart '\t' (by decide) (by decide), apart '\r' (by decide) (by decide)]
  have n := apart 'n' (by decide) (by decide)
  have t := apart 't' (by decide) (by decide)
  have f := apart 'f' (by decide) (by decide)
  have quote := apart '"' (by decide) (by decide)
  have bracket := apart '[' (by decide) (by decide)
  have brace := apart '{' (by decide) (by decide)
  simp [readValue, skip_cons plain, n, t, f, quote, bracket, brace]

/-- A written value starts with a character that is no blank and closes nothing. -/
theorem head_chars {v : Value} (writable : v.Writable) :
    ∃ c cs, v.chars = c :: cs ∧ isSpace c = false ∧ c ≠ ']' := by
  match v with
  | .null => exact ⟨_, _, rfl, by decide, by decide⟩
  | .bool true => exact ⟨_, _, rfl, by decide, by decide⟩
  | .bool false => exact ⟨_, _, rfl, by decide, by decide⟩
  | .string s => exact ⟨_, _, rfl, by decide, by decide⟩
  | .array [] => exact ⟨_, _, rfl, by decide, by decide⟩
  | .array (v :: items) => exact ⟨_, _, rfl, by decide, by decide⟩
  | .object [] => exact ⟨_, _, rfl, by decide, by decide⟩
  | .object ((k, v) :: members) => exact ⟨_, _, rfl, by decide, by decide⟩
  | .number n =>
    obtain ⟨c, cs, text, head⟩ := head_number writable
    refine ⟨c, cs, text, ?_, ?_⟩
    · rcases head with rfl | digit
      · decide
      · cases space : isSpace c with
        | false => rfl
        | true =>
          simp only [isSpace, Bool.or_eq_true, decide_eq_true_eq] at space
          rcases space with ((rfl | rfl) | rfl) | rfl <;> contradiction
    · rintro rfl
      rcases head with sign | digit <;> contradiction

theorem readValue_string {fuel : Nat} {s : String} (enough : s.toList.length ≤ fuel)
    (rest : List Char) :
    readValue (fuel + 1) (quoted s ++ rest) = some (.string (some s), rest) := by
  have text : quoted s ++ rest = '"' :: (s.toList.flatMap escapeChar ++ '"' :: rest) := by
    simp [quoted]
  rw [text]
  simp [readValue, skip_cons (c := '"') (by decide), stringTail_text enough]

theorem readValue_array {fuel : Nat} {c : Char} {cs : List Char} (plain : isSpace c = false)
    (opens : c ≠ ']') : readValue (fuel + 1) ('[' :: c :: cs) = readItems fuel [] (c :: cs) := by
  simp [readValue, skip_cons (c := '[') (by decide), skip_cons plain, opens]

theorem readValue_object (fuel : Nat) (cs : List Char) :
    readValue (fuel + 1) ('{' :: '"' :: cs) = readMembers fuel [] ('"' :: cs) := by
  simp [readValue, skip_cons (c := '{') (by decide), skip_cons (c := '"') (by decide)]

section

variable {fuel : Nat} {cs rest : List Char} {t : Tree}

theorem readItems_last (done : List Tree) (read : readValue fuel cs = some (t, ']' :: rest)) :
    readItems (fuel + 1) done cs = some (.array (t :: done).reverse, rest) := by
  simp [readItems, read, skip_cons (c := ']') (by decide)]

theorem readItems_more (done : List Tree) (read : readValue fuel cs = some (t, ',' :: rest)) :
    readItems (fuel + 1) done cs = readItems fuel (t :: done) rest := by
  simp [readItems, read, skip_cons (c := ',') (by decide)]

variable {k : String} (enough : k.toList.length ≤ fuel) (done : List (Option String × Tree))

include enough

theorem readMembers_last (read : readValue fuel cs = some (t, '}' :: rest)) :
    readMembers (fuel + 1) done (quoted k ++ ':' :: cs) =
      some (.object ((some k, t) :: done).reverse, rest) := by
  have text : quoted k ++ ':' :: cs = '"' :: (k.toList.flatMap escapeChar ++ '"' :: ':' :: cs) := by
    simp [quoted]
  rw [text]
  simp [readMembers, skip_cons (c := '"') (by decide), skip_cons (c := ':') (by decide),
    skip_cons (c := '}') (by decide), stringTail_text enough, read]

theorem readMembers_more (read : readValue fuel cs = some (t, ',' :: rest)) :
    readMembers (fuel + 1) done (quoted k ++ ':' :: cs) =
      readMembers fuel ((some k, t) :: done) rest := by
  have text : quoted k ++ ':' :: cs = '"' :: (k.toList.flatMap escapeChar ++ '"' :: ':' :: cs) := by
    simp [quoted]
  rw [text]
  simp [readMembers, skip_cons (c := '"') (by decide), skip_cons (c := ':') (by decide),
    skip_cons (c := ',') (by decide), stringTail_text enough, read]

end

theorem length_quoted (s : String) : s.toList.length + 2 ≤ (quoted s).length := by
  have escaped := length_le_escaped s.toList
  simp only [quoted, List.length_cons, List.length_append, List.length_nil]
  omega

mutual

/-- The text of a value is read as its tree, whatever ends it. The length of the text is fuel
enough: every step takes a character or enters a value that has one. -/
theorem readValue_chars {v : Value} (writable : v.Writable) (fuel : Nat) (rest : List Char)
    (enough : v.chars.length ≤ fuel) (ends : EndsNumber rest) :
    readValue fuel (v.chars ++ rest) = some (ofValue v, rest) := by
  obtain ⟨c, cs, text, plain, _⟩ := head_chars writable
  cases fuel with
  | zero =>
    rw [text] at enough
    contradiction
  | succ fuel =>
    match v with
    | .null => simp [Value.chars, readValue, skip, isSpace, ofValue]
    | .bool true => simp [Value.chars, readValue, skip, isSpace, ofValue]
    | .bool false => simp [Value.chars, readValue, skip, isSpace, ofValue]
    | .number n =>
      obtain ⟨c, cs, text, head⟩ := head_number writable
      have read := readNumber_chars writable ends
      rw [text, List.cons_append] at read
      rw [Value.chars, text, List.cons_append, readValue_number head, read]
      rfl
    | .string s =>
      have length := length_quoted s
      rw [Value.chars] at enough ⊢
      exact readValue_string (by omega) rest
    | .array [] => simp [Value.chars, readValue, skip, isSpace, ofValue, ofItems]
    | .array (v :: items) =>
      obtain ⟨first, others⟩ := writable
      obtain ⟨c, cs, text, plain, opens⟩ := head_chars first
      have read := readItems_chars first others fuel
        (by simp only [Value.chars, List.length_cons, List.length_append] at enough ⊢; omega) [] rest
      have chars : (Value.array (v :: items)).chars ++ rest =
          '[' :: (v.chars ++ (Value.itemsTail items ++ rest)) := by
        simp [Value.chars]
      rw [chars]
      rw [text, List.cons_append] at read ⊢
      rw [readValue_array plain opens, read]
      rfl
    | .object [] => simp [Value.chars, readValue, skip, isSpace, ofValue, ofMembers]
    | .object ((k, v) :: members) =>
      obtain ⟨first, others⟩ := writable
      have read := readMembers_chars k first others fuel
        (by simp only [Value.chars, List.length_cons, List.length_append] at enough ⊢; omega) [] rest
      have chars : (Value.object ((k, v) :: members)).chars ++ rest =
          '{' :: (quoted k ++ ':' :: (v.chars ++ (Value.membersTail members ++ rest))) := by
        simp [Value.chars]
      have opens := readValue_object fuel
        (k.toList.flatMap escapeChar ++ '"' :: ':' :: (v.chars ++ (Value.membersTail members ++ rest)))
      have key : quoted k ++ ':' :: (v.chars ++ (Value.membersTail members ++ rest)) = '"' ::
          (k.toList.flatMap escapeChar ++ '"' :: ':' ::
            (v.chars ++ (Value.membersTail members ++ rest))) := by
        simp [quoted]
      rw [chars]
      rw [key] at read ⊢
      rw [opens, read]
      rfl
termination_by fuel

theorem readItems_chars {v : Value} {items : List Value} (first : v.Writable)
    (others : Value.WritableItems items) (fuel : Nat)
    (enough : (v.chars ++ Value.itemsTail items).length ≤ fuel) (done : List Tree)
    (rest : List Char) : readItems fuel done (v.chars ++ (Value.itemsTail items ++ rest)) =
      some (.array (done.reverse ++ ofValue v :: ofItems items), rest) := by
  cases fuel with
  | zero =>
    obtain ⟨c, cs, text, _⟩ := head_chars first
    rw [text] at enough
    contradiction
  | succ fuel =>
    match items with
    | [] =>
      have read := readValue_chars first fuel (']' :: rest)
        (by simp [Value.itemsTail] at enough; omega) (endsNumber_cons (by simp) rest)
      rw [Value.itemsTail, List.singleton_append, readItems_last done read]
      simp [ofItems]
    | w :: items =>
      obtain ⟨second, others⟩ := others
      have read := readValue_chars first fuel
        (',' :: (w.chars ++ (Value.itemsTail items ++ rest)))
        (by simp [Value.itemsTail] at enough; omega) (endsNumber_cons (by simp) _)
      have tail := readItems_chars second others fuel
        (by simp [Value.itemsTail] at enough ⊢; omega) (ofValue v :: done) rest
      rw [Value.itemsTail, List.cons_append, List.cons_append, List.append_assoc,
        readItems_more done read, tail]
      simp [ofItems]
termination_by fuel

theorem readMembers_chars (k : String) {v : Value} {members : List (String × Value)}
    (first : v.Writable) (others : Value.WritableMembers members) (fuel : Nat)
    (enough : (quoted k ++ ':' :: (v.chars ++ Value.membersTail members)).length ≤ fuel)
    (done : List (Option String × Tree)) (rest : List Char) :
    readMembers fuel done (quoted k ++ ':' :: (v.chars ++ (Value.membersTail members ++ rest))) =
      some (.object (done.reverse ++ (some k, ofValue v) :: ofMembers members), rest) := by
  have length := length_quoted k
  cases fuel with
  | zero =>
    rw [List.length_append] at enough
    omega
  | succ fuel =>
    match members with
    | [] =>
      have read := readValue_chars first fuel ('}' :: rest)
        (by simp [Value.membersTail] at enough; omega) (endsNumber_cons (by simp) rest)
      rw [Value.membersTail, List.singleton_append, readMembers_last
        (by simp [Value.membersTail] at enough; omega) done read]
      simp [ofMembers]
    | (l, w) :: members =>
      obtain ⟨second, others⟩ := others
      have read := readValue_chars first fuel
        (',' :: (quoted l ++ ':' :: (w.chars ++ (Value.membersTail members ++ rest))))
        (by simp [Value.membersTail] at enough; omega) (endsNumber_cons (by simp) _)
      have tail := readMembers_chars l second others fuel
        (by simp [Value.membersTail] at enough ⊢; omega) ((some k, ofValue v) :: done) rest
      have chars : Value.membersTail ((l, w) :: members) ++ rest =
          ',' :: (quoted l ++ ':' :: (w.chars ++ (Value.membersTail members ++ rest))) := by
        simp [Value.membersTail]
      rw [chars, readMembers_more (by simp [Value.membersTail] at enough; omega) done read, tail]
      simp [ofMembers]
termination_by fuel

end

/-- The text of a value is the text of its tree. -/
theorem read?_chars {v : Value} (writable : v.Writable) :
    Tree.read? v.chars = some (ofValue v) := by
  have read := readValue_chars writable (2 * v.chars.length + 1) [] (by omega) .nil
  rw [List.append_nil] at read
  simp [Tree.read?, read, skip]

/-! Arrays and objects part by part. -/

theorem ofItems_eq_map (items : List Value) : ofItems items = items.map ofValue := by
  induction items with
  | nil => rfl
  | cons v items ih => rw [ofItems, ih, List.map_cons]

theorem ofMembers_eq_map (members : List (String × Value)) :
    ofMembers members = members.map fun m => (some m.1, ofValue m.2) := by
  induction members with
  | nil => rfl
  | cons m members ih => rw [ofMembers, ih, List.map_cons]

namespace Value

section

variable {l : List α} {f g : α → Value}

theorem itemsTail_congr (same : ∀ a ∈ l, (f a).chars = (g a).chars) :
    itemsTail (l.map f) = itemsTail (l.map g) := by
  induction l with
  | nil => rfl
  | cons a l ih =>
    obtain ⟨first, rest⟩ := List.forall_mem_cons.1 same
    simp only [List.map_cons, itemsTail, first, ih rest]

/-- Arrays of items with the same texts have the same text. -/
theorem chars_array_congr (same : ∀ a ∈ l, (f a).chars = (g a).chars) :
    (array (l.map f)).chars = (array (l.map g)).chars := by
  cases l with
  | nil => rfl
  | cons a l =>
    obtain ⟨first, rest⟩ := List.forall_mem_cons.1 same
    simp only [List.map_cons, chars, first, itemsTail_congr rest]

theorem membersTail_congr {key : α → String} (same : ∀ a ∈ l, (f a).chars = (g a).chars) :
    membersTail (l.map fun a => (key a, f a)) = membersTail (l.map fun a => (key a, g a)) := by
  induction l with
  | nil => rfl
  | cons a l ih =>
    obtain ⟨first, rest⟩ := List.forall_mem_cons.1 same
    simp only [List.map_cons, membersTail, first, ih rest]

/-- Objects whose members have the same keys and texts have the same text. -/
theorem chars_object_congr {key : α → String} (same : ∀ a ∈ l, (f a).chars = (g a).chars) :
    (object (l.map fun a => (key a, f a))).chars = (object (l.map fun a => (key a, g a))).chars := by
  cases l with
  | nil => rfl
  | cons a l =>
    obtain ⟨first, rest⟩ := List.forall_mem_cons.1 same
    simp only [List.map_cons, chars, first, membersTail_congr rest]

end

end Value

end RegionalTables.Json
