/-! Cutting text, or a list of bytes, at a separator. -/
namespace RegionalTables.Text

variable {α : Type} [DecidableEq α]

/-- Pieces between occurrences of `separator`; always at least one. -/
def split (separator : α) : List α → List (List α)
  | [] => [[]]
  | c :: rest =>
    if c = separator then [] :: split separator rest
    else
      match split separator rest with
      | piece :: pieces => (c :: piece) :: pieces
      | [] => [[c]]

/-- The text before the first `separator` and the text after it, if there is one. -/
def cut? (separator : α) : List α → Option (List α × List α)
  | [] => none
  | c :: rest =>
    if c = separator then some ([], rest)
    else (cut? separator rest).map fun (before, after) => (c :: before, after)

theorem split_ne_nil (separator : α) (cs : List α) : split separator cs ≠ [] := by
  cases cs with
  | nil => simp [split]
  | cons c rest =>
    unfold split
    split
    · simp
    · split <;> simp

/-- Joining the pieces gives the text back. -/
theorem intercalate_split (separator : α) (cs : List α) :
    [separator].intercalate (split separator cs) = cs := by
  induction cs with
  | nil => simp [split, List.intercalate]
  | cons c rest ih =>
    have nonempty := split_ne_nil separator rest
    unfold split
    split
    case isTrue h =>
      cases hs : split separator rest with
      | nil => exact absurd hs nonempty
      | cons piece pieces =>
        rw [hs] at ih
        simpa [List.intercalate, List.intersperse, h] using ih
    case isFalse =>
      cases hs : split separator rest with
      | nil => exact absurd hs nonempty
      | cons piece pieces =>
        rw [hs] at ih
        cases pieces <;> simp_all [List.intercalate, List.intersperse]

end RegionalTables.Text
