import RegionalTables.Proofs.Query.Cleaning
import RegionalTables.Proofs.Text.Form

/-! Arguments from encoded pairs. A query string gives every name the values that are not blank of its
pairs, in their order, and question marks before it and empty segments in it give nothing. -/
namespace RegionalTables.Arguments

open Text

/-- The query string is that of the pairs, after any number of question marks and with empty segments
anywhere. -/
def Encodes (raw : String) (pairs : List (String × String)) : Prop :=
  ∃ (marks : Nat) (segments : List (List Char)),
    raw.toList = List.replicate marks '?' ++ ['&'].intercalate segments ∧
      segments.filter (!·.isEmpty) = pairs.map Form.pairText

theorem encodes_encode (pairs : List (String × String)) :
    Encodes (String.ofList (Form.encode pairs)) pairs := by
  refine ⟨0, pairs.map Form.pairText, by simp [Form.encode_eq], List.filter_eq_self.2 ?_⟩
  intro segment member
  obtain ⟨p, _, rfl⟩ := List.mem_map.1 member
  simp [Form.pairText]

variable {raw raw' : String} {pairs : List (String × String)}

theorem Encodes.pairs_eq (encodes : Encodes raw pairs) : Form.decode (trimmed raw) = pairs := by
  obtain ⟨marks, segments, chars, written⟩ := encodes
  have noMark : '?' ∉ ['&'].intercalate segments := by
    intro member
    obtain same | ⟨segment, own, inside⟩ := mem_intercalate member
    · contradiction
    · exact Form.not_mem_segment written (by decide) (by decide) segment own inside
  have ends : ∀ c ∈ (['&'].intercalate segments).head?, (c == '?') = false := by
    intro c first
    refine beq_false_of_ne fun same => noMark ?_
    rw [← same]
    exact List.mem_of_head? first
  rw [trimmed, chars, (run_append (by simp) ends).2]
  exact Form.decode_intercalate written

theorem Encodes.find?_eq (encodes : Encodes raw pairs) (name : String) :
    (ofQueryString raw).find? name =
      if valuesOf name pairs = [] then none else some (valuesOf name pairs) := by
  rw [ofQueryString, encodes.pairs_eq, find?_ofPairs]

theorem valuesOf_filled (name : String) (pairs : List (String × String)) :
    valuesOf name (pairs.filter (!·.2.isEmpty)) = valuesOf name pairs := by
  simp only [valuesOf, List.filter_filter, Bool.and_assoc, Bool.and_self]

/-- Any pairs are read back from their encoded form as the values of each name that are not blank. A name
without one is absent, and the pairs of blank values might as well not be there. -/
theorem read_from_encoded (pairs : List (String × String)) :
    Encodes (String.ofList (Form.encode pairs)) pairs ∧
    ∀ raw, Encodes raw pairs →
      (∀ name, (ofQueryString raw).find? name =
        if valuesOf name pairs = [] then none else some (valuesOf name pairs)) ∧
      ∀ raw', Encodes raw' (pairs.filter (!·.2.isEmpty)) → ofQueryString raw' = ofQueryString raw := by
  refine ⟨encodes_encode pairs, fun raw encodes => ⟨encodes.find?_eq, fun raw' filled => ?_⟩⟩
  apply SortedMap.ext_find?
  intro name
  rw [filled.find?_eq, encodes.find?_eq, valuesOf_filled]

/-- Signs that separate or stand for others, characters of several bytes, an empty name and a blank
value. -/
theorem read_from_encoded_signs :
    let pairs := [("data", "a&b=?+% ä"), ("region", ""), ("", "€"), ("data", "*-._~")]
    let raw := "??&data=a%26b%3D%3F%2B%25+%C3%A4&region=&&=%E2%82%AC&data=*-._%7E&"
    let raw' := "data=a%26b%3D%3F%2B%25+%C3%A4&=%E2%82%AC&data=*-._%7E"
    Encodes raw pairs ∧ Encodes raw' (pairs.filter (!·.2.isEmpty)) ∧
      (ofQueryString raw).find? "data" = some ["a&b=?+% ä", "*-._~"] ∧
      (ofQueryString raw).find? "region" = none ∧ ofQueryString raw' = ofQueryString raw := by
  intro pairs raw raw'
  have encodes : Encodes raw pairs :=
    ⟨2, [[], Form.pairText pairs[0], Form.pairText pairs[1], [], Form.pairText pairs[2],
      Form.pairText pairs[3], []], by decide +kernel, by decide +kernel⟩
  have filled : Encodes raw' (pairs.filter (!·.2.isEmpty)) :=
    ⟨0, [Form.pairText pairs[0], Form.pairText pairs[2], Form.pairText pairs[3]],
      by decide +kernel, by decide +kernel⟩
  obtain ⟨found, unchanged⟩ := (read_from_encoded pairs).2 raw encodes
  exact ⟨encodes, filled, found "data", found "region", unchanged raw' filled⟩

end RegionalTables.Arguments
