import RegionalTables.Text.Split

/-! Cutting and joining undo each other: a text is its pieces joined, and pieces without the
separator come back from the text they are joined to. -/
namespace RegionalTables.Text

variable {α : Type} [DecidableEq α] {c : α}

theorem split_of_not_mem {cs : List α} (absent : c ∉ cs) : split c cs = [cs] := by
  induction cs with
  | nil => rfl
  | cons d cs ih =>
    obtain ⟨apart, absent⟩ := not_or.1 (mt List.mem_cons.2 absent)
    simp [split, Ne.symm apart, ih absent]

/-- A separator between two texts separates their pieces. -/
theorem split_append_cons (cs rest : List α) :
    split c (cs ++ c :: rest) = split c cs ++ split c rest := by
  induction cs with
  | nil => simp [split]
  | cons d cs ih =>
    rw [List.cons_append, split, split, ih]
    split
    · rfl
    · cases pieces : split c cs with
      | nil => exact absurd pieces (split_ne_nil c cs)
      | cons piece pieces => rfl

theorem split_append {cs : List α} (absent : c ∉ cs) (rest : List α) :
    split c (cs ++ c :: rest) = cs :: split c rest := by
  rw [split_append_cons, split_of_not_mem absent]
  rfl

/-- Text before the first separator belongs to the first piece. -/
theorem split_append_left {front : List α} (absent : c ∉ front) (cs : List α) :
    split c (front ++ cs) = (split c cs).modifyHead (front ++ ·) := by
  induction front with
  | nil => cases pieces : split c cs <;> simp [pieces]
  | cons d front ih =>
    obtain ⟨apart, absent⟩ := not_or.1 (mt List.mem_cons.2 absent)
    rw [List.cons_append, split, if_neg (Ne.symm apart), ih absent]
    cases pieces : split c cs with
    | nil => exact absurd pieces (split_ne_nil c cs)
    | cons piece pieces => rfl

/-- The pieces of a text are made of its characters. -/
theorem mem_of_mem_split {cs piece : List α} {a : α} (member : piece ∈ split c cs)
    (inside : a ∈ piece) : a ∈ cs := by
  induction cs generalizing piece with
  | nil =>
    obtain rfl := List.mem_singleton.1 member
    contradiction
  | cons d cs ih =>
    rw [split] at member
    split at member
    · rcases List.mem_cons.1 member with rfl | later
      · contradiction
      · exact List.mem_cons_of_mem d (ih later inside)
    · cases pieces : split c cs with
      | nil => exact absurd pieces (split_ne_nil c cs)
      | cons first pieces =>
        rw [pieces] at member ih
        rcases List.mem_cons.1 member with rfl | later
        · rcases List.mem_cons.1 inside with rfl | inside
          · exact List.mem_cons_self
          · exact List.mem_cons_of_mem d (ih List.mem_cons_self inside)
        · exact List.mem_cons_of_mem d (ih (List.mem_cons_of_mem first later) inside)

omit [DecidableEq α] in
theorem mem_intercalate {parts : List (List α)} {a : α} (member : a ∈ [c].intercalate parts) :
    a = c ∨ ∃ part ∈ parts, a ∈ part := by
  induction parts with
  | nil => simp at member
  | cons part parts ih =>
    cases parts with
    | nil =>
      rw [List.intercalate_singleton] at member
      exact .inr ⟨part, List.mem_cons_self, member⟩
    | cons next parts =>
      rw [List.intercalate_cons_cons, List.append_assoc, List.mem_append] at member
      rcases member with first | rest
      · exact .inr ⟨part, List.mem_cons_self, first⟩
      · rcases List.mem_cons.1 rest with same | rest
        · exact .inl same
        · rcases ih rest with same | ⟨other, later, inside⟩
          · exact .inl same
          · exact .inr ⟨other, List.mem_cons_of_mem _ later, inside⟩

theorem split_intercalate {parts : List (List α)} (nonempty : parts ≠ []) :
    split c ([c].intercalate parts) = parts.flatMap (split c) := by
  induction parts with
  | nil => contradiction
  | cons part parts ih =>
    cases parts with
    | nil => simp
    | cons next parts =>
      rw [List.intercalate_cons_cons, List.append_assoc, List.singleton_append, split_append_cons,
        ih (by simp)]
      rfl

/-- Pieces without the separator are found again. -/
theorem split_intercalate_of_not_mem {parts : List (List α)} (nonempty : parts ≠ [])
    (plain : ∀ part ∈ parts, c ∉ part) : split c ([c].intercalate parts) = parts := by
  rw [split_intercalate nonempty]
  clear nonempty
  induction parts with
  | nil => rfl
  | cons part parts ih =>
    obtain ⟨first, rest⟩ := List.forall_mem_cons.1 plain
    rw [List.flatMap_cons, split_of_not_mem first, ih rest]
    rfl

omit [DecidableEq α] in
/-- What follows the last separator is determined by the whole text. -/
theorem append_cons_right_cancel {front front' back back' : List α} (absent : c ∉ back)
    (absent' : c ∉ back') (same : front ++ c :: back = front' ++ c :: back') : back = back' := by
  rcases List.append_eq_append_iff.1 same with ⟨gap, _, rest⟩ | ⟨gap, _, rest⟩
  · cases gap with
    | nil => simpa using rest
    | cons d gap =>
      obtain rfl := (List.cons.inj rest).2
      simp at absent
  · cases gap with
    | nil => simpa using rest.symm
    | cons d gap =>
      obtain rfl := (List.cons.inj rest).2
      simp at absent'

omit [DecidableEq α] in
/-- A run ends before the first element that is not of it. -/
theorem run_append {p : α → Bool} {run rest : List α} (inside : ∀ a ∈ run, p a = true)
    (ends : ∀ a ∈ rest.head?, p a = false) :
    (run ++ rest).takeWhile p = run ∧ (run ++ rest).dropWhile p = rest := by
  rw [List.takeWhile_append_of_pos inside, List.dropWhile_append_of_pos inside]
  cases rest with
  | nil => simp
  | cons a rest => simp [ends a rfl]

theorem cut?_of_not_mem {cs : List α} (absent : c ∉ cs) : cut? c cs = none := by
  induction cs with
  | nil => rfl
  | cons d cs ih =>
    obtain ⟨apart, absent⟩ := not_or.1 (mt List.mem_cons.2 absent)
    simp [cut?, Ne.symm apart, ih absent]

theorem cut?_append {before : List α} (absent : c ∉ before) (after : List α) :
    cut? c (before ++ c :: after) = some (before, after) := by
  induction before with
  | nil => simp [cut?]
  | cons d before ih =>
    obtain ⟨apart, absent⟩ := not_or.1 (mt List.mem_cons.2 absent)
    simp [cut?, Ne.symm apart, ih absent]

/-- What stands before the first separator and what follows it are determined by the whole text. -/
theorem append_cons_inj {front front' back back' : List α} (absent : c ∉ front) (absent' : c ∉ front') :
    front ++ c :: back = front' ++ c :: back' ↔ front = front' ∧ back = back' := by
  constructor
  · intro same
    have cut := cut?_append absent back
    rw [same, cut?_append absent'] at cut
    obtain ⟨rfl, rfl⟩ := Prod.mk.inj (Option.some.inj cut)
    exact ⟨rfl, rfl⟩
  · rintro ⟨rfl, rfl⟩
    rfl

/-- A text is cut at its first separator. -/
theorem eq_of_cut? {cs before after : List α} (cut : cut? c cs = some (before, after)) :
    cs = before ++ c :: after := by
  induction cs generalizing before with
  | nil => contradiction
  | cons d cs ih =>
    rw [cut?] at cut
    split at cut
    · next same =>
      obtain ⟨rfl, rfl⟩ := Prod.mk.inj (Option.some.inj cut)
      rw [same]
      rfl
    · obtain ⟨⟨front, back⟩, rest, same⟩ := Option.map_eq_some_iff.1 cut
      obtain ⟨rfl, rfl⟩ := Prod.mk.inj same
      rw [ih rest]
      rfl

end RegionalTables.Text
