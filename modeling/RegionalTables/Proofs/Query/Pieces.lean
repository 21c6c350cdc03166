import RegionalTables.Proofs.Query.Entry

/-! The pieces of a data value, told without the splitting. Each of them is scanned on its own: it has no
comma outside its parentheses, and every one but the last has closed them at its end. So no nesting is
carried from one piece to the next, and splitting undoes joining and is undone by it. -/
namespace RegionalTables.Entry

/-- The nesting after a text. A closing parenthesis without an opening one counts for nothing. -/
def nestingAfter (nesting : Nat) (cs : List Char) : Nat := cs.foldl nestingPast nesting

/-- Every comma of the text stands inside parentheses. -/
def Undivided (nesting : Nat) (cs : List Char) : Prop :=
  ∀ before after, cs = before ++ ',' :: after → nestingAfter nesting before ≠ 0

theorem undivided_nil (nesting : Nat) : Undivided nesting [] := by
  intro before after same
  simp at same

theorem undivided_cons_iff {nesting : Nat} {c : Char} {cs : List Char} :
    Undivided nesting (c :: cs) ↔
      ¬ (c = ',' ∧ nesting = 0) ∧ Undivided (nestingPast nesting c) cs := by
  constructor
  · intro undivided
    constructor
    · rintro ⟨rfl, zero⟩
      exact undivided [] cs rfl zero
    · rintro before after rfl
      exact undivided (c :: before) after rfl
  · rintro ⟨inside, undivided⟩ before after same
    cases before with
    | nil => exact fun zero => inside ⟨(List.cons.inj same).1, zero⟩
    | cons d before =>
      obtain ⟨rfl, rest⟩ := List.cons.inj same
      exact undivided before after rest

instance decidableUndivided : (nesting : Nat) → (cs : List Char) → Decidable (Undivided nesting cs)
  | nesting, [] => .isTrue (undivided_nil nesting)
  | nesting, c :: cs =>
    have := decidableUndivided (nestingPast nesting c) cs
    decidable_of_iff (¬ (c = ',' ∧ nesting = 0) ∧ Undivided (nestingPast nesting c) cs)
      undivided_cons_iff.symm

theorem closed_iff {nesting : Nat} {cs : List Char} :
    Closed nesting cs ↔ Undivided nesting cs ∧ nestingAfter nesting cs = 0 := by
  induction cs generalizing nesting with
  | nil => simp [Closed, undivided_nil, nestingAfter]
  | cons c cs ih =>
    rw [Closed, ih, undivided_cons_iff, and_assoc]
    rfl

/-- Text scanned from a nesting in pieces. Only the first piece starts at that nesting. -/
def Pieces (nesting : Nat) : List (List Char) → Prop
  | [] => False
  | [piece] => Undivided nesting piece
  | piece :: next :: pieces => Closed nesting piece ∧ Pieces 0 (next :: pieces)

theorem Pieces.cons {nesting : Nat} {c : Char} {piece : List Char} {pieces : List (List Char)}
    (inside : ¬ (c = ',' ∧ nesting = 0)) (told : Pieces (nestingPast nesting c) (piece :: pieces)) :
    Pieces nesting ((c :: piece) :: pieces) := by
  cases pieces with
  | nil => exact undivided_cons_iff.2 ⟨inside, told⟩
  | cons next pieces => exact ⟨⟨inside, told.1⟩, told.2⟩

theorem pieces_splitFrom (nesting : Nat) (cs : List Char) : Pieces nesting (splitFrom nesting cs) := by
  induction cs generalizing nesting with
  | nil => exact undivided_nil nesting
  | cons c cs ih =>
    rw [splitFrom]
    split
    · next separator =>
      obtain ⟨next, pieces, found⟩ := List.exists_cons_of_ne_nil (splitFrom_ne_nil 0 cs)
      have rest := ih 0
      rw [found] at rest ⊢
      exact ⟨separator.2, rest⟩
    · next inside =>
      have rest := ih (nestingPast nesting c)
      obtain ⟨piece, pieces, found⟩ :=
        List.exists_cons_of_ne_nil (splitFrom_ne_nil (nestingPast nesting c) cs)
      rw [found] at rest
      rw [nestingPast] at found
      simp only [found]
      exact rest.cons inside

theorem splitFrom_of_undivided {nesting : Nat} {cs : List Char} (undivided : Undivided nesting cs) :
    splitFrom nesting cs = [cs] := by
  induction cs generalizing nesting with
  | nil => rfl
  | cons c cs ih =>
    obtain ⟨inside, rest⟩ := undivided_cons_iff.1 undivided
    have alone := ih rest
    rw [nestingPast] at alone
    simp only [splitFrom, if_neg inside, alone]

theorem splitFrom_eq_iff {nesting : Nat} {cs : List Char} {pieces : List (List Char)} :
    splitFrom nesting cs = pieces ↔ Pieces nesting pieces ∧ [','].intercalate pieces = cs := by
  constructor
  · rintro rfl
    exact ⟨pieces_splitFrom nesting cs, intercalate_splitFrom nesting cs⟩
  · rintro ⟨told, rfl⟩
    induction pieces generalizing nesting with
    | nil => contradiction
    | cons piece pieces ih =>
      cases pieces with
      | nil =>
        rw [List.intercalate_singleton]
        exact splitFrom_of_undivided told
      | cons next pieces =>
        rw [List.intercalate_cons_cons, List.append_assoc, List.singleton_append,
          (splitFrom_closed told.1).2, ih told.2]

theorem pieces_iff {pieces : List (List Char)} : Pieces 0 pieces ↔
    pieces ≠ [] ∧ (∀ piece ∈ pieces, Undivided 0 piece) ∧
      ∀ piece ∈ pieces.dropLast, nestingAfter 0 piece = 0 := by
  induction pieces with
  | nil => simp [Pieces]
  | cons piece pieces ih =>
    cases pieces with
    | nil => simp [Pieces]
    | cons next pieces =>
      rw [Pieces, ih, closed_iff, List.dropLast_cons_cons, List.forall_mem_cons (a := piece),
        List.forall_mem_cons (a := piece)]
      constructor
      · rintro ⟨⟨undivided, closed⟩, _, others, ends⟩
        exact ⟨by simp, ⟨undivided, others⟩, closed, ends⟩
      · rintro ⟨_, ⟨undivided, others⟩, closed, ends⟩
        exact ⟨⟨undivided, closed⟩, by simp, others, ends⟩

theorem split_eq_iff {text : String} {pieces : List String} : split text = pieces ↔
    pieces ≠ [] ∧ ",".intercalate pieces = text ∧
      (∀ piece ∈ pieces, Undivided 0 piece.toList) ∧
      ∀ piece ∈ pieces.dropLast, nestingAfter 0 piece.toList = 0 := by
  have chars : split text = pieces ↔ splitFrom 0 text.toList = pieces.map String.toList := by
    constructor
    · rintro rfl
      simp [split, Function.comp_def]
    · intro same
      simp [split, same, Function.comp_def]
  have joined : ",".intercalate pieces = text ↔
      [','].intercalate (pieces.map String.toList) = text.toList := by
    rw [← String.toList_inj, String.toList_intercalate]
    rfl
  rw [chars, splitFrom_eq_iff, pieces_iff, joined, List.forall_mem_map, ← List.map_dropLast,
    List.forall_mem_map]
  simp only [ne_eq, List.map_eq_nil_iff]
  constructor
  · rintro ⟨⟨nonempty, undivided, ends⟩, same⟩
    exact ⟨nonempty, same, undivided, ends⟩
  · rintro ⟨nonempty, same, undivided, ends⟩
    exact ⟨⟨nonempty, undivided, ends⟩, same⟩

/-- The pieces of a value are the texts that give it when they are joined by commas, have no comma
outside their own parentheses and, but for the last, close them. So joining gives every value back, and
closed pieces come back from their join. -/
theorem split_inverts_join :
    (∀ text, ",".intercalate (split text) = text ∧
      ∀ piece ∈ split text, Undivided 0 piece.toList) ∧
    (∀ pieces : List String, pieces ≠ [] →
      (∀ piece ∈ pieces, nestingAfter 0 piece.toList = 0 ∧ Undivided 0 piece.toList) →
        split (",".intercalate pieces) = pieces) ∧
    ∀ text pieces, split text = pieces ↔ pieces ≠ [] ∧ ",".intercalate pieces = text ∧
      (∀ piece ∈ pieces, Undivided 0 piece.toList) ∧
      ∀ piece ∈ pieces.dropLast, nestingAfter 0 piece.toList = 0 := by
  refine ⟨fun text => ?_, fun pieces nonempty closed => ?_, fun text pieces => split_eq_iff⟩
  · obtain ⟨_, joined, undivided, _⟩ := split_eq_iff.1 (rfl : split text = split text)
    exact ⟨joined, undivided⟩
  · refine split_eq_iff.2 ⟨nonempty, rfl, fun piece own => (closed piece own).2, fun piece own => ?_⟩
    exact (closed piece (List.dropLast_subset _ own)).1

/-- The pieces need not be entries. -/
theorem split_of_closed_pieces :
    let pieces := ["12411:BEVSTD(GES:GESM,NAT)", ")", "", "((,),)ä"]
    pieces ≠ [] ∧ (∀ piece ∈ pieces, nestingAfter 0 piece.toList = 0 ∧ Undivided 0 piece.toList) ∧
      split "12411:BEVSTD(GES:GESM,NAT),),,((,),)ä" = pieces := by
  intro pieces
  have closed : ∀ piece ∈ pieces, nestingAfter 0 piece.toList = 0 ∧ Undivided 0 piece.toList := by
    decide +kernel
  have joined : ",".intercalate pieces = "12411:BEVSTD(GES:GESM,NAT),),,((,),)ä" := by decide +kernel
  refine ⟨by simp [pieces], closed, ?_⟩
  rw [← joined]
  exact split_inverts_join.2.1 pieces (by simp [pieces]) closed

end RegionalTables.Entry
