import RegionalTables.FactStore
import RegionalTables.Proofs.Text.Split
import RegionalTables.Proofs.Text.Utf8

/-! Lines of a file and lines of its text. Line feeds and carriage returns are single bytes that no
other character has, so a file is cut where its text is. -/
namespace RegionalTables

namespace Text

section

variable {α : Type} [DecidableEq α]

/-- A line without the carriage return before its end. -/
def withoutReturn (ret : α) (line : List α) : List α :=
  if line.getLast? = some ret then line.dropLast else line

/-- The lines made of what stands between line feeds. Each piece but the last was ended, and the
last is a line unless it is empty. -/
def endLines (ret : α) : List (List α) → List (List α)
  | [] => []
  | [last] => if last = [] then [] else [last]
  | piece :: pieces => withoutReturn ret piece :: endLines ret pieces

theorem endLines_cons (ret : α) (piece : List α) {pieces : List (List α)} (more : pieces ≠ []) :
    endLines ret (piece :: pieces) = withoutReturn ret piece :: endLines ret pieces := by
  cases pieces with
  | nil => contradiction
  | cons next pieces => rfl

end

/-- The lines of a text without their ends. -/
def lines (cs : List Char) : List (List Char) := endLines '\r' (split '\n' cs)

namespace Utf8

section

variable {d : Char} (ascii : d.toNat < 0x80)

include ascii

/-- Bytes are cut at the byte of such a character where the text is. -/
theorem split_encode (cs : List Char) :
    split d.toNat.toUInt8 (encode cs) = (split d cs).map encode := by
  induction cs with
  | nil => rfl
  | cons c cs ih =>
    rw [encode_cons, split]
    split
    · next same =>
      rw [same, encodeChar_ascii ascii, List.singleton_append, split, if_pos rfl, ih]
      rfl
    · next apart =>
      rw [split_append_left (not_mem_encodeChar ascii apart), ih]
      cases pieces : split d cs with
      | nil => exact absurd pieces (split_ne_nil d cs)
      | cons piece pieces => simp [encode_cons]

/-- Bytes end with the byte of such a character when the text ends with it. -/
theorem getLast?_encode (cs : List Char) :
    (encode cs).getLast? = some d.toNat.toUInt8 ↔ cs.getLast? = some d := by
  rcases List.eq_nil_or_concat cs with rfl | ⟨front, c, rfl⟩
  · simp [encode]
  · have nonempty : (encodeChar c).getLast?.isSome = true := by simp [encodeChar_ne_nil c]
    rw [List.concat_eq_append, encode_append, encode_singleton, List.getLast?_append,
      Option.or_of_isSome nonempty, List.getLast?_concat]
    constructor
    · intro last
      by_cases same : c = d
      · rw [same]
      · exact absurd (List.mem_of_getLast? last) (not_mem_encodeChar ascii same)
    · intro same
      rw [Option.some.inj same, encodeChar_ascii ascii]
      rfl

/-- The byte of such a character is dropped from the end of the bytes with the character. -/
theorem withoutReturn_encode (cs : List Char) :
    withoutReturn d.toNat.toUInt8 (encode cs) = encode (withoutReturn d cs) := by
  by_cases last : cs.getLast? = some d
  · obtain ⟨front, rfl⟩ := List.getLast?_eq_some_iff.1 last
    rw [withoutReturn, if_pos ((getLast?_encode ascii _).2 last), withoutReturn, if_pos last,
      encode_append, encode_singleton, encodeChar_ascii ascii, List.dropLast_concat,
      List.dropLast_concat]
  · rw [withoutReturn, if_neg (mt (getLast?_encode ascii cs).1 last), withoutReturn, if_neg last]

theorem endLines_encode (pieces : List (List Char)) :
    endLines d.toNat.toUInt8 (pieces.map encode) = (endLines d pieces).map encode := by
  induction pieces with
  | nil => rfl
  | cons piece pieces ih =>
    cases pieces with
    | nil =>
      cases piece with
      | nil => rfl
      | cons c cs =>
        have nonempty : encode (c :: cs) ≠ [] := by
          rw [encode_cons]
          exact List.append_ne_nil_of_left_ne_nil (encodeChar_ne_nil c) _
        exact if_neg nonempty
    | cons next pieces =>
      have more : (next :: pieces).map encode ≠ [] := List.cons_ne_nil _ _
      rw [List.map_cons, endLines_cons _ _ more, ih, withoutReturn_encode ascii,
        endLines_cons d piece (List.cons_ne_nil next pieces)]
      rfl

end

end Utf8

end Text

namespace FactStore

open Text

theorem linesFrom_feed (done : List (List UInt8)) (line rest : List UInt8) :
    linesFrom done line (0x0A :: rest) =
      linesFrom (withoutReturn 0x0D line.reverse :: done) [] rest := by
  cases line with
  | nil => rfl
  | cons last start =>
    by_cases ret : last = 0x0D
    · simp [linesFrom, withoutReturn, ret]
    · simp [linesFrom, withoutReturn, ret]

theorem linesFrom_other (done : List (List UInt8)) (line rest : List UInt8) {b : UInt8}
    (other : b ≠ 0x0A) : linesFrom done line (b :: rest) = linesFrom done (b :: line) rest :=
  if_neg other

/-- The scan gives the lines of what was read of the current line and what is left. -/
theorem linesFrom_eq (done : List (List UInt8)) {line : List UInt8} (unended : 0x0A ∉ line)
    (bytes : List UInt8) : linesFrom done line bytes =
      done.reverse ++ endLines 0x0D (split 0x0A (line.reverse ++ bytes)) := by
  have absent : 0x0A ∉ line.reverse := mt List.mem_reverse.1 unended
  induction bytes generalizing done line with
  | nil =>
    rw [List.append_nil, split_of_not_mem absent]
    cases line with
    | nil => simp [linesFrom, endLines]
    | cons b line => simp [linesFrom, endLines]
  | cons b rest ih =>
    by_cases feed : b = 0x0A
    · rw [feed, linesFrom_feed, ih _ (by simp) (by simp), split_append absent,
        endLines_cons _ _ (split_ne_nil 0x0A rest)]
      simp
    · have longer : 0x0A ∉ b :: line := by simp [Ne.symm feed, unended]
      rw [linesFrom_other done line rest feed, ih done longer (mt List.mem_reverse.1 longer)]
      simp

/-- The lines of a file are what its text has for lines. -/
theorem lines_encode (cs : List Char) :
    lines (Utf8.encode cs) = (Text.lines cs).map Utf8.encode := by
  have scanned : lines (Utf8.encode cs) = endLines 0x0D (split 0x0A (Utf8.encode cs)) :=
    linesFrom_eq [] (by simp) _
  have pieces : split 0x0A (Utf8.encode cs) = (split '\n' cs).map Utf8.encode :=
    Utf8.split_encode (d := '\n') (by decide) cs
  rw [scanned, pieces]
  exact Utf8.endLines_encode (d := '\r') (by decide) _

end FactStore

end RegionalTables
