import RegionalTables.Proofs.Text.Split
import RegionalTables.Query.Entry

/-! Data entries in writing. Every text that is read as an entry is the written form of this entry,
and every entry made of tokens is read back from its written form. Entries joined by commas are
found again, as no comma of an entry stands outside its parentheses. -/
namespace RegionalTables.Entry

/-! Nesting. -/

/-- The nesting after a character. -/
def nestingPast (nesting : Nat) (c : Char) : Nat :=
  if c = '(' then nesting + 1 else if c = ')' then nesting - 1 else nesting

/-- No comma stands outside parentheses, and all parentheses are closed at the end. -/
def Closed (nesting : Nat) : List Char → Prop
  | [] => nesting = 0
  | c :: cs => ¬ (c = ',' ∧ nesting = 0) ∧ Closed (nestingPast nesting c) cs

theorem splitFrom_closed {nesting : Nat} {cs : List Char} (closed : Closed nesting cs) :
    splitFrom nesting cs = [cs] ∧
      ∀ rest, splitFrom nesting (cs ++ ',' :: rest) = cs :: splitFrom 0 rest := by
  induction cs generalizing nesting with
  | nil =>
    obtain rfl := closed
    exact ⟨rfl, fun rest => by simp [splitFrom]⟩
  | cons c cs ih =>
    obtain ⟨inside, closed⟩ := closed
    obtain ⟨alone, more⟩ := ih closed
    constructor
    · simp only [splitFrom, if_neg inside]
      rw [nestingPast] at alone
      rw [alone]
    · intro rest
      simp only [List.cons_append, splitFrom, if_neg inside]
      have found := more rest
      rw [nestingPast] at found
      rw [found]

theorem splitFrom_ne_nil (nesting : Nat) (cs : List Char) : splitFrom nesting cs ≠ [] := by
  cases cs with
  | nil => simp [splitFrom]
  | cons c rest =>
    unfold splitFrom
    split
    · simp
    · simp only
      split <;> simp

/-- Joining the pieces gives the text back, whatever the nesting. -/
theorem intercalate_splitFrom (nesting : Nat) (cs : List Char) :
    [','].intercalate (splitFrom nesting cs) = cs := by
  induction cs generalizing nesting with
  | nil => rfl
  | cons c cs ih =>
    rw [splitFrom]
    split
    · next separator =>
      rw [List.intercalate_cons_of_ne_nil (splitFrom_ne_nil 0 cs), ih, separator.1]
      rfl
    · have rest := ih (nestingPast nesting c)
      cases found : splitFrom (nestingPast nesting c) cs with
      | nil => exact absurd found (splitFrom_ne_nil _ cs)
      | cons piece pieces =>
        rw [found] at rest
        rw [nestingPast] at found
        simp only [found]
        rw [← rest]
        cases pieces <;> rfl

theorem intercalate_split (text : String) : ",".intercalate (split text) = text := by
  have joined := intercalate_splitFrom 0 text.toList
  apply String.toList_inj.1
  rw [split, String.toList_intercalate, List.map_map]
  simpa [Function.comp_def] using joined

/-- Closed pieces are found again when they are joined by commas. -/
theorem splitFrom_intercalate {pieces : List (List Char)} (nonempty : pieces ≠ [])
    (closed : ∀ piece ∈ pieces, Closed 0 piece) : splitFrom 0 ([','].intercalate pieces) = pieces := by
  induction pieces with
  | nil => contradiction
  | cons piece pieces ih =>
    obtain ⟨first, rest⟩ := List.forall_mem_cons.1 closed
    cases pieces with
    | nil =>
      rw [List.intercalate_singleton]
      exact (splitFrom_closed first).1
    | cons next pieces =>
      rw [List.intercalate_cons_cons, List.append_assoc, List.singleton_append,
        (splitFrom_closed first).2, ih (by simp) rest]

theorem split_intercalate {texts : List String} (nonempty : texts ≠ [])
    (closed : ∀ text ∈ texts, Closed 0 text.toList) : split (",".intercalate texts) = texts := by
  have pieces : splitFrom 0 (",".intercalate texts).toList = texts.map String.toList := by
    rw [String.toList_intercalate]
    refine splitFrom_intercalate (by simpa using nonempty) ?_
    intro piece member
    obtain ⟨text, own, rfl⟩ := List.mem_map.1 member
    exact closed text own
  rw [split, pieces, List.map_map]
  simp [Function.comp_def]

/-- Text without parentheses leaves the nesting as it is; only where it is zero commas matter. -/
theorem closed_append {nesting : Nat} {cs rest : List Char} (opening : '(' ∉ cs) (closing : ')' ∉ cs)
    (inside : 0 < nesting ∨ ',' ∉ cs) (closed : Closed nesting rest) :
    Closed nesting (cs ++ rest) := by
  induction cs with
  | nil => exact closed
  | cons c cs ih =>
    simp only [List.mem_cons, not_or] at opening closing inside
    have same : nestingPast nesting c = nesting := by
      rw [nestingPast, if_neg (Ne.symm opening.1), if_neg (Ne.symm closing.1)]
    refine ⟨?_, ?_⟩
    · rintro ⟨rfl, rfl⟩
      simp at inside
    · rw [same]
      exact ih opening.2 closing.2 (inside.imp_right And.right)

/-! The written form. -/

/-- Dimension and values as they are written in parentheses. -/
def partChars (part : String × List String) : List Char :=
  part.1.toList ++
    if part.2.isEmpty then [] else ':' :: ['|'].intercalate (part.2.map String.toList)

def innerChars (parts : List (String × List String)) : List Char :=
  [','].intercalate (parts.map partChars)

def chars (e : Entry) : List Char :=
  e.statistic.toList ++ ':' :: (e.measure.toList ++
    if e.parts.isEmpty then [] else '(' :: (innerChars e.parts ++ [')']))

def text (e : Entry) : String := String.ofList e.chars

theorem text_ne_empty (e : Entry) : e.text ≠ "" := by
  intro empty
  have none : e.chars = [] := String.ofList_inj.1 empty
  simp [chars] at none

/-- A dimension and its values are tokens. -/
structure ValidPart (part : String × List String) : Prop where
  dimension : isToken part.1.toList = true
  values : ∀ value ∈ part.2, isToken value.toList = true

structure Valid (e : Entry) : Prop where
  statistic : isToken e.statistic.toList = true
  measure : isToken e.measure.toList = true
  parts : ∀ part ∈ e.parts, ValidPart part

theorem isTokenChar_of_mem {cs : List Char} (token : isToken cs = true) :
    ∀ c ∈ cs, isTokenChar c = true :=
  List.all_eq_true.1 (Bool.and_eq_true_iff.1 token).2

theorem not_mem_of_isToken {c : Char} {cs : List Char} (token : isToken cs = true)
    (other : isTokenChar c = false) : c ∉ cs := by
  intro member
  rw [isTokenChar_of_mem token c member] at other
  contradiction

theorem ne_nil_of_isToken {cs : List Char} (token : isToken cs = true) : cs ≠ [] := by
  rintro rfl
  contradiction

/-- The characters of a dimension with its values. -/
theorem mem_partChars {part : String × List String} (valid : ValidPart part) {c : Char}
    (member : c ∈ partChars part) : isTokenChar c = true ∨ c = ':' ∨ c = '|' := by
  rcases List.mem_append.1 member with dimension | values
  · exact .inl (isTokenChar_of_mem valid.dimension c dimension)
  · split at values
    · contradiction
    · rcases List.mem_cons.1 values with colon | values
      · exact .inr (.inl colon)
      · rcases Text.mem_intercalate values with bar | ⟨_, own, inside⟩
        · exact .inr (.inr bar)
        · obtain ⟨value, listed, rfl⟩ := List.mem_map.1 own
          exact .inl (isTokenChar_of_mem (valid.values value listed) c inside)

theorem not_mem_partChars {part : String × List String} (valid : ValidPart part) {c : Char}
    (other : isTokenChar c = false ∧ c ≠ ':' ∧ c ≠ '|') : c ∉ partChars part := by
  intro member
  rcases mem_partChars valid member with token | colon | bar
  · rw [other.1] at token
    contradiction
  · exact other.2.1 colon
  · exact other.2.2 bar

theorem not_mem_innerChars {parts : List (String × List String)}
    (valid : ∀ part ∈ parts, ValidPart part) {c : Char}
    (other : isTokenChar c = false ∧ c ≠ ':' ∧ c ≠ '|') (noComma : c ≠ ',') :
    c ∉ innerChars parts := by
  intro member
  rcases Text.mem_intercalate member with comma | ⟨_, own, inside⟩
  · exact noComma comma
  · obtain ⟨part, listed, rfl⟩ := List.mem_map.1 own
    exact not_mem_partChars (valid part listed) other inside

/-- The written form is one piece. -/
theorem closed_chars {e : Entry} (valid : e.Valid) : Closed 0 e.chars := by
  have token {cs rest : List Char} (token : isToken cs = true) (closed : Closed 0 rest) :
      Closed 0 (cs ++ rest) :=
    closed_append (not_mem_of_isToken token (by decide)) (not_mem_of_isToken token (by decide))
      (.inr (not_mem_of_isToken token (by decide))) closed
  refine token valid.statistic ⟨by decide, token valid.measure ?_⟩
  split
  · rfl
  · refine ⟨by decide, ?_⟩
    exact closed_append (not_mem_innerChars valid.parts (by decide) (by decide))
      (not_mem_innerChars valid.parts (by decide) (by decide)) (.inl Nat.one_pos) ⟨by decide, rfl⟩

/-! Reading what was written. -/

theorem part?_partChars {part : String × List String} (valid : ValidPart part) :
    part? (partChars part) = some part := by
  obtain ⟨dimension, values⟩ := part
  have token := valid.dimension
  have noColon : ':' ∉ dimension.toList := not_mem_of_isToken token (by decide)
  cases values with
  | nil =>
    have written : partChars (dimension, []) = dimension.toList := List.append_nil _
    rw [part?, written, Text.cut?_of_not_mem noColon]
    simp [token]
  | cons value values =>
    have written : partChars (dimension, value :: values) =
      dimension.toList ++ ':' :: ['|'].intercalate ((value :: values).map String.toList) := rfl
    have pieces : Text.split '|' (['|'].intercalate ((value :: values).map String.toList)) =
        (value :: values).map String.toList := by
      refine Text.split_intercalate_of_not_mem (by simp) ?_
      intro piece member
      obtain ⟨v, listed, rfl⟩ := List.mem_map.1 member
      exact not_mem_of_isToken (valid.values v listed) (by decide)
    have tokens : ((value :: values).map String.toList).all isToken = true := by
      rw [List.all_map, List.all_eq_true]
      exact valid.values
    rw [part?, written, Text.cut?_append noColon]
    simp only [pieces, token, tokens, Bool.and_self, ↓reduceIte, String.ofList_toList,
      List.map_map]
    simp [Function.comp_def]

theorem mapM_part? {parts : List (String × List String)} (valid : ∀ part ∈ parts, ValidPart part) :
    (parts.map partChars).mapM part? = some parts := by
  induction parts with
  | nil => rfl
  | cons part parts ih =>
    obtain ⟨first, rest⟩ := List.forall_mem_cons.1 valid
    rw [List.map_cons, List.mapM_cons, part?_partChars first, ih rest]
    rfl

theorem inner?_parentheses {body : List Char} (nonempty : body ≠ []) (opening : '(' ∉ body)
    (closing : ')' ∉ body) : inner? ('(' :: (body ++ [')'])) = some body := by
  have plain : ∀ c ∈ body, (c != '(' && c != ')') = true := by
    intro c member
    have one : c ≠ '(' := fun same => opening (same ▸ member)
    have two : c ≠ ')' := fun same => closing (same ▸ member)
    simp [one, two]
  have taken : (body ++ [')']).takeWhile (fun c => c != '(' && c != ')') = body := by
    rw [List.takeWhile_append_of_pos plain]
    simp
  simp [inner?, taken, nonempty]

theorem partChars_ne_nil {part : String × List String} (valid : ValidPart part) :
    partChars part ≠ [] :=
  List.append_ne_nil_of_left_ne_nil (ne_nil_of_isToken valid.dimension) _

theorem split_innerChars {parts : List (String × List String)} (nonempty : parts ≠ [])
    (valid : ∀ part ∈ parts, ValidPart part) :
    Text.split ',' (innerChars parts) = parts.map partChars := by
  refine Text.split_intercalate_of_not_mem (by simpa using nonempty) ?_
  intro piece member
  obtain ⟨part, listed, rfl⟩ := List.mem_map.1 member
  exact not_mem_partChars (valid part listed) (by decide)

theorem innerChars_ne_nil {parts : List (String × List String)} (nonempty : parts ≠ [])
    (valid : ∀ part ∈ parts, ValidPart part) : innerChars parts ≠ [] := by
  intro empty
  have blank : parts.map partChars = [[]] := by
    rw [← split_innerChars nonempty valid, empty]
    rfl
  obtain ⟨part, rfl, none⟩ := List.map_eq_singleton_iff.1 blank
  exact partChars_ne_nil (valid part List.mem_cons_self) none

/-- An entry of tokens is read from its written form. -/
theorem ofChars?_chars {e : Entry} (valid : e.Valid) : ofChars? e.chars = some e := by
  have noColon : ':' ∉ e.statistic.toList := not_mem_of_isToken valid.statistic (by decide)
  have token := isTokenChar_of_mem valid.measure
  obtain ⟨statistic, measure, parts⟩ := e
  rw [ofChars?, chars, Text.cut?_append noColon]
  cases parts with
  | nil =>
    have whole : (measure.toList ++ []).takeWhile isTokenChar = measure.toList ++ [] :=
      List.takeWhile_append_of_pos token
    rw [List.append_nil] at whole
    simp [valid.statistic, valid.measure, whole]
  | cons part parts =>
    have nonempty := innerChars_ne_nil (by simp) valid.parts
    have inner := inner?_parentheses nonempty
      (not_mem_innerChars valid.parts (by decide) (by decide))
      (not_mem_innerChars valid.parts (by decide) (by decide))
    have whole : ∀ rest, (measure.toList ++ '(' :: rest).takeWhile isTokenChar = measure.toList := by
      intro rest
      rw [List.takeWhile_append_of_pos token, List.takeWhile_cons_of_neg (by decide),
        List.append_nil]
    have read : (Text.split ',' (innerChars (part :: parts))).mapM part? = some (part :: parts) := by
      rw [split_innerChars (by simp) valid.parts, mapM_part? valid.parts]
    simp [valid.statistic, valid.measure, whole, inner, read]

theorem partChars_of_part? {cs : List Char} {part : String × List String}
    (read : part? cs = some part) : ValidPart part ∧ partChars part = cs := by
  rw [part?] at read
  cases cut : Text.cut? ':' cs with
  | none =>
    simp only [cut, List.all_nil, Bool.and_true, Option.ite_none_right_eq_some] at read
    obtain ⟨token, same⟩ := read
    obtain rfl := Option.some.inj same
    refine ⟨⟨by simpa using token, by simp⟩, ?_⟩
    simp [partChars]
  | some halves =>
    obtain ⟨dimension, values⟩ := halves
    simp only [cut, Option.ite_none_right_eq_some, Bool.and_eq_true] at read
    obtain ⟨⟨token, tokens⟩, same⟩ := read
    obtain rfl := Option.some.inj same
    refine ⟨⟨by simpa using token, ?_⟩, ?_⟩
    · intro value member
      obtain ⟨piece, own, rfl⟩ := List.mem_map.1 member
      rw [String.toList_ofList]
      exact List.all_eq_true.1 tokens piece own
    · have nonempty := Text.split_ne_nil '|' values
      rw [Text.eq_of_cut? cut]
      simp [partChars, nonempty, Function.comp_def, Text.intercalate_split]

theorem eq_of_inner? {cs body : List Char} (found : inner? cs = some body) :
    cs = '(' :: (body ++ [')']) := by
  match cs with
  | [] => contradiction
  | c :: rest =>
    by_cases opening : c = '('
    · subst opening
      simp only [inner?, Option.ite_none_right_eq_some, Bool.and_eq_true, beq_iff_eq] at found
      obtain ⟨⟨_, last⟩, same⟩ := found
      obtain rfl := Option.some.inj same
      rw [← last, List.prefix_iff_eq_append.1 (List.takeWhile_prefix _)]
    · simp [inner?, opening] at found

theorem chars_of_mapM_part? {pieces : List (List Char)} {parts : List (String × List String)}
    (read : pieces.mapM part? = some parts) :
    (∀ part ∈ parts, ValidPart part) ∧ parts.map partChars = pieces := by
  induction pieces generalizing parts with
  | nil =>
    obtain rfl := Option.some.inj read
    simp
  | cons piece pieces ih =>
    rw [List.mapM_cons] at read
    obtain ⟨part, first, read⟩ := Option.bind_eq_some_iff.1 read
    obtain ⟨others, rest, same⟩ := Option.bind_eq_some_iff.1 read
    obtain rfl := Option.some.inj same
    obtain ⟨valid, written⟩ := partChars_of_part? first
    obtain ⟨allValid, allWritten⟩ := ih rest
    rw [List.forall_mem_cons, List.map_cons, written, allWritten]
    exact ⟨⟨valid, allValid⟩, rfl⟩

/-- A text that is read as an entry is its written form. -/
theorem chars_of_ofChars? {cs : List Char} {e : Entry} (read : ofChars? cs = some e) :
    e.Valid ∧ e.chars = cs := by
  obtain ⟨⟨statistic, rest⟩, cut, made⟩ := Option.bind_eq_some_iff.1 read
  obtain rfl := Text.eq_of_cut? cut
  obtain ⟨measure, taken⟩ : ∃ measure, measure = rest.takeWhile isTokenChar := ⟨_, rfl⟩
  obtain ⟨tail, left⟩ : ∃ tail, tail = rest.drop measure.length := ⟨_, rfl⟩
  have whole : measure ++ tail = rest := by
    rw [left, taken]
    exact List.prefix_iff_eq_append.1 (List.takeWhile_prefix _)
  simp only [← taken, ← left] at made
  split at made
  · contradiction
  · next tokens =>
    simp only [Bool.or_eq_true, Bool.not_eq_true', not_or, Bool.not_eq_false] at tokens
    by_cases empty : tail = []
    · subst empty
      obtain rfl := Option.some.inj made
      rw [← whole]
      exact ⟨⟨by simpa using tokens.1, by simpa using tokens.2, by simp⟩, by simp [chars]⟩
    · rw [if_neg (by simpa using empty)] at made
      obtain ⟨body, inner, made⟩ := Option.bind_eq_some_iff.1 made
      obtain ⟨parts, pieces, same⟩ := Option.bind_eq_some_iff.1 made
      obtain rfl := Option.some.inj same
      obtain ⟨valid, written⟩ := chars_of_mapM_part? pieces
      have nonempty : parts ≠ [] := by
        rintro rfl
        exact Text.split_ne_nil ',' body written.symm
      have joined : innerChars parts = body := by
        rw [innerChars, written, Text.intercalate_split]
      rw [← whole, eq_of_inner? inner]
      refine ⟨⟨by simpa using tokens.1, by simpa using tokens.2, valid⟩, ?_⟩
      simp [chars, nonempty, joined]

/-- The texts that are read as entries are the written forms of entries of tokens. -/
theorem read_eq_ok_iff {text : String} {e : Entry} :
    read text = .ok e ↔ e.Valid ∧ e.text = text := by
  rw [read]
  constructor
  · intro made
    split at made
    · next found =>
      obtain rfl := Except.ok.inj made
      obtain ⟨valid, written⟩ := chars_of_ofChars? found
      exact ⟨valid, by rw [Entry.text, written, String.ofList_toList]⟩
    · contradiction
  · rintro ⟨valid, rfl⟩
    rw [Entry.text, String.toList_ofList, ofChars?_chars valid]

/-! Joined entries. -/

theorem split_texts {entries : List Entry} (nonempty : entries ≠ [])
    (valid : ∀ e ∈ entries, e.Valid) :
    split (",".intercalate (entries.map text)) = entries.map text := by
  apply split_intercalate
  · simpa using nonempty
  · intro written member
    obtain ⟨e, own, rfl⟩ := List.mem_map.1 member
    rw [text, String.toList_ofList]
    exact closed_chars (valid e own)

/-- Texts that are read as entries are written entries. -/
theorem exists_entries {texts : List String} (readable : ∀ t ∈ texts, ∃ e, read t = .ok e) :
    ∃ entries : List Entry, (∀ e ∈ entries, e.Valid) ∧ entries.map text = texts := by
  induction texts with
  | nil => exact ⟨[], by simp, rfl⟩
  | cons t texts ih =>
    obtain ⟨⟨e, own⟩, rest⟩ := List.forall_mem_cons.1 readable
    obtain ⟨valid, rfl⟩ := read_eq_ok_iff.1 own
    obtain ⟨entries, allValid, rfl⟩ := ih rest
    exact ⟨e :: entries, List.forall_mem_cons.2 ⟨valid, allValid⟩, rfl⟩

/-- All pieces of a text are entries if and only if the text is a list of entries. -/
theorem forall_split_iff {value : String} :
    (∀ piece ∈ split value, ∃ e : Entry, e.Valid ∧ e.text = piece) ↔
      ∃ entries : List Entry, entries ≠ [] ∧ (∀ e ∈ entries, e.Valid) ∧
        ",".intercalate (entries.map text) = value := by
  constructor
  · intro pieces
    have readable : ∀ piece ∈ split value, ∃ e, read piece = .ok e := fun piece member =>
      (pieces piece member).imp fun _ => read_eq_ok_iff.2
    obtain ⟨entries, valid, written⟩ := exists_entries readable
    refine ⟨entries, ?_, valid, by rw [written, intercalate_split]⟩
    rintro rfl
    exact splitFrom_ne_nil 0 value.toList (List.map_eq_nil_iff.1 written.symm)
  · rintro ⟨entries, nonempty, valid, rfl⟩ piece member
    rw [split_texts nonempty valid] at member
    obtain ⟨e, own, rfl⟩ := List.mem_map.1 member
    exact ⟨e, valid e own, rfl⟩

end RegionalTables.Entry
