import RegionalTables.Proofs.Collections
import RegionalTables.Proofs.Text.Split
import RegionalTables.Settings.Basic

/-! Text with variables, told part by part. Where each part ends before what follows it the text is read as
these parts, so values are put for the references from left to right and are not read again. -/
namespace RegionalTables

namespace Environment

/-- A part of a text with variables. -/
inductive Part where
  | literal (text : String)
  | braced (name : String)
  | bare (name : String)
  | dollar

namespace Part

/-- The part as it is written. -/
def chars : Part → List Char
  | literal text => text.toList
  | braced name => '$' :: '{' :: (name.toList ++ ['}'])
  | bare name => '$' :: name.toList
  | dollar => ['$']

/-- The part is well formed and ends before this text. -/
def EndsBefore (rest : List Char) : Part → Prop
  | literal text => '$' ∉ text.toList
  | braced name => '}' ∉ name.toList
  | bare name => name ≠ "" ∧ (∀ c ∈ name.toList, isNameChar c = true) ∧
    ∀ c ∈ rest.head?, isNameChar c = false
  | dollar => ∀ c ∈ rest.head?, c ≠ '{' ∧ isNameChar c = false

/-- The variable that the part refers to. -/
def name? : Part → Option String
  | braced name | bare name => some name
  | literal _ | dollar => none

/-- What stands for the part. -/
def filled (env : Environment) : Part → String
  | literal text => text
  | braced name | bare name => (env name).getD ""
  | dollar => "$"

/-- The pieces that the part is read as. -/
def pieces : Part → List Piece
  | literal text => text.toList.map .plain
  | braced name | bare name => [.reference name.toList]
  | dollar => [.plain '$']

end Part

/-- The parts of a text, each of which ends before the next. -/
def Told : List Part → Prop
  | [] => True
  | part :: parts => part.EndsBefore (parts.flatMap Part.chars) ∧ Told parts

instance decidableEndsBefore (rest : List Char) : (part : Part) → Decidable (part.EndsBefore rest)
  | .literal text => inferInstanceAs (Decidable ('$' ∉ text.toList))
  | .braced name => inferInstanceAs (Decidable ('}' ∉ name.toList))
  | .bare name =>
    decidable_of_iff (name ≠ "" ∧ name.toList.all isNameChar = true ∧
      rest.head?.all (fun c => !isNameChar c) = true) (by cases rest <;> simp [Part.EndsBefore])
  | .dollar =>
    decidable_of_iff (rest.head?.all (fun c => c != '{' && !isNameChar c) = true)
      (by cases rest <;> simp [Part.EndsBefore])

instance decidableTold : (parts : List Part) → Decidable (Told parts)
  | [] => .isTrue trivial
  | part :: parts =>
    have := decidableTold parts
    inferInstanceAs (Decidable (part.EndsBefore (parts.flatMap Part.chars) ∧ Told parts))

theorem pieces_literal {cs : List Char} (plain : '$' ∉ cs) (rest : List Char) :
    pieces (cs ++ rest) = cs.map .plain ++ pieces rest := by
  induction cs with
  | nil => rfl
  | cons c cs ih =>
    obtain ⟨apart, plain⟩ := not_or.1 (mt List.mem_cons.2 plain)
    have other : ∀ tail, c = '$' → cs ++ rest = '{' :: tail → False := fun _ same _ => apart same.symm
    rw [List.cons_append, pieces.eq_3 _ _ other, if_neg fun name => apart name.1.symm, ih plain]
    rfl

/-- A dollar sign that no brace follows. -/
theorem pieces_dollar {rest : List Char} (noBrace : ∀ c ∈ rest.head?, c ≠ '{') :
    pieces ('$' :: rest) = if rest.takeWhile isNameChar = [] then .plain '$' :: pieces rest
      else .reference (rest.takeWhile isNameChar) :: pieces (rest.dropWhile isNameChar) := by
  have other : ∀ tail, '$' = '$' → rest = '{' :: tail → False := by
    rintro tail - rfl
    exact noBrace '{' rfl rfl
  rw [pieces.eq_3 _ _ other]
  simp only [true_and, ne_eq, ite_not]

theorem pieces_braced {name : List Char} (closes : '}' ∉ name) (rest : List Char) :
    pieces ('$' :: '{' :: (name ++ '}' :: rest)) = .reference name :: pieces rest := by
  have inside : ∀ c ∈ name, (c != '}') = true := by
    intro c member
    rw [bne_iff_ne]
    rintro rfl
    exact closes member
  have ends : ∀ c ∈ ('}' :: rest).head?, (c != '}') = false := by simp
  obtain ⟨before, after⟩ := Text.run_append inside ends
  rw [pieces, beforeBrace, before, afterBrace, after, List.drop_succ_cons, List.drop_zero]

theorem pieces_bare {name rest : List Char} (filled : name ≠ [])
    (inside : ∀ c ∈ name, isNameChar c = true) (ends : ∀ c ∈ rest.head?, isNameChar c = false) :
    pieces ('$' :: (name ++ rest)) = .reference name :: pieces rest := by
  have noBrace : ∀ c ∈ (name ++ rest).head?, c ≠ '{' := by
    obtain ⟨d, others, rfl⟩ := List.exists_cons_of_ne_nil filled
    rintro c first rfl
    obtain rfl := Option.some.inj first
    have isName := inside '{' List.mem_cons_self
    have notName : isNameChar '{' = false := by decide +kernel
    exact Bool.false_ne_true (notName.symm.trans isName)
  obtain ⟨run, after⟩ := Text.run_append inside ends
  rw [pieces_dollar noBrace, run, after, if_neg filled]

/-- A part that ends before what follows it is read for itself. -/
theorem Part.pieces_append {part : Part} {rest : List Char} (ends : part.EndsBefore rest) :
    Environment.pieces (part.chars ++ rest) = part.pieces ++ Environment.pieces rest := by
  cases part with
  | literal text => exact pieces_literal ends rest
  | braced name =>
    have written : (braced name).chars ++ rest = '$' :: '{' :: (name.toList ++ '}' :: rest) := by
      simp [chars]
    rw [written, pieces_braced ends]
    rfl
  | bare name =>
    obtain ⟨filled, inside, ends⟩ := ends
    exact pieces_bare (by simpa using filled) inside ends
  | dollar =>
    have none : rest.takeWhile isNameChar = [] := by
      cases rest with
      | nil => rfl
      | cons c rest => simp [(ends c rfl).2]
    have lone := pieces_dollar fun c first => (ends c first).1
    rwa [if_pos none] at lone

theorem pieces_parts {parts : List Part} (told : Told parts) :
    pieces (parts.flatMap Part.chars) = parts.flatMap Part.pieces := by
  induction parts with
  | nil => simp [pieces]
  | cons part parts ih =>
    obtain ⟨ends, told⟩ := told
    rw [List.flatMap_cons, Part.pieces_append ends, ih told, List.flatMap_cons]

/-- What stands for a piece, with nothing for a variable that is not set. -/
def pieceText (env : Environment) : Piece → List Char
  | .plain c => [c]
  | .reference name => ((env (String.ofList name)).getD "").toList

theorem Part.flatMap_pieceText (env : Environment) (part : Part) :
    part.pieces.flatMap (pieceText env) = (part.filled env).toList := by
  cases part with
  | literal text => simp [pieces, pieceText, filled, List.flatMap_map]
  | braced name | bare name => simp [pieces, pieceText, filled]
  | dollar => simp [pieces, pieceText, filled]

theorem Part.value_pieces {env : Environment} {part : Part}
    (set : ∀ name ∈ part.name?, (env name).isSome = true) :
    ∀ piece ∈ part.pieces, value env piece = .ok (pieceText env piece) := by
  intro piece own
  cases part with
  | literal text =>
    obtain ⟨c, _, rfl⟩ := List.mem_map.1 own
    rfl
  | braced name | bare name =>
    obtain rfl := List.mem_singleton.1 own
    obtain ⟨text, given⟩ := Option.isSome_iff_exists.1 (set name rfl)
    simp [value, pieceText, given]
  | dollar =>
    obtain rfl := List.mem_singleton.1 own
    rfl

/-- Every variable that a part refers to is set. -/
def AllSet (env : Environment) (parts : List Part) : Prop :=
  ∀ name ∈ parts.filterMap Part.name?, (env name).isSome = true

instance (env : Environment) (parts : List Part) : Decidable (AllSet env parts) :=
  inferInstanceAs (Decidable (∀ name ∈ parts.filterMap Part.name?, (env name).isSome = true))

theorem AllSet.value_pieces {env : Environment} {parts : List Part} (set : AllSet env parts) :
    ∀ piece ∈ parts.flatMap Part.pieces, value env piece = .ok (pieceText env piece) := by
  intro piece member
  obtain ⟨part, own, inside⟩ := List.mem_flatMap.1 member
  exact Part.value_pieces (fun name refers => set name (List.mem_filterMap.2 ⟨part, own, refers⟩))
    piece inside

theorem expand_of_allSet {env : Environment} {parts : List Part} (told : Told parts)
    (set : AllSet env parts) : Settings.expand env (String.ofList (parts.flatMap Part.chars)) =
      .ok (String.join (parts.map (Part.filled env))) := by
  have filled : (parts.flatMap Part.pieces).flatMap (pieceText env) =
      parts.flatMap fun part => (part.filled env).toList := by
    simp only [List.flatMap_assoc, Part.flatMap_pieceText]
  have joined : String.ofList ((parts.flatMap Part.pieces).map (pieceText env)).flatten =
      String.join (parts.map (Part.filled env)) := by
    rw [← List.flatMap_def, filled, ← String.toList_inj]
    simp [String.toList_join, List.flatMap_map]
  rw [Settings.expand, expand, String.toList_ofList, pieces_parts told, mapM_eq_ok_map set.value_pieces]
  exact congrArg Except.ok joined

theorem expand_of_first_unset {env : Environment} {before after : List Part} {part : Part}
    {name : String} (told : Told (before ++ part :: after)) (set : AllSet env before)
    (refers : part.name? = some name) (unset : env name = none) :
    Settings.expand env (String.ofList ((before ++ part :: after).flatMap Part.chars)) =
      .error (.unsetVariable name) := by
  have reference : part.pieces = [.reference name.toList] := by
    cases part with
    | literal text | dollar => contradiction
    | braced other | bare other =>
      obtain rfl := Option.some.inj refers
      rfl
  have bad : value env (.reference name.toList) = .error name := by
    simp [value, unset]
  have failed : ((before ++ part :: after).flatMap Part.pieces).mapM (value env) = .error name := by
    rw [List.flatMap_append, List.flatMap_cons, reference, List.singleton_append]
    exact mapM_first_error (fun piece own => ⟨_, set.value_pieces piece own⟩) bad
  rw [Settings.expand, expand, String.toList_ofList, pieces_parts told, failed]
  rfl

/-- Values are put for the references of a text, and what is between them stays. If variables are not
set, the first of them is named. -/
theorem expand_parts {env : Environment} {parts : List Part} (told : Told parts) :
    (AllSet env parts → Settings.expand env (String.ofList (parts.flatMap Part.chars)) =
      .ok (String.join (parts.map (Part.filled env)))) ∧
    ∀ before name after, parts.filterMap Part.name? = before ++ name :: after →
      (∀ earlier ∈ before, (env earlier).isSome = true) → env name = none →
        Settings.expand env (String.ofList (parts.flatMap Part.chars)) =
          .error (.unsetVariable name) := by
  refine ⟨expand_of_allSet told, fun before name after names set unset => ?_⟩
  obtain ⟨first, rest, rfl, rfl, later⟩ := List.filterMap_eq_append_iff.1 names
  obtain ⟨plain, part, others, rfl, none, refers, _⟩ := List.filterMap_eq_cons_iff.1 later
  rw [← List.append_assoc] at told ⊢
  refine expand_of_first_unset told (fun earlier own => ?_) refers unset
  obtain ⟨other, member, same⟩ := List.mem_filterMap.1 own
  rcases List.mem_append.1 member with front | back
  · exact set earlier (List.mem_filterMap.2 ⟨other, front, same⟩)
  · rw [none other back] at same
    contradiction

end Environment

namespace Sample

def environment : Environment := .ofVariables [("DATA", "/srv/$ROOT"), ("ä_1", "x"), ("NONE", "")]

/-- A path with variables, one of which is set to nothing. -/
def pathParts : List Environment.Part :=
  [.braced "DATA", .literal "/", .bare "ä_1", .bare "NONE", .literal ".ndjson", .dollar]

/-- The same before variables that are not set. -/
def unsetParts : List Environment.Part := pathParts ++ [.braced "ROOT", .braced "", .bare "HOME"]

end Sample

namespace Environment

open Sample (environment pathParts unsetParts)

/-- The value of a variable is not read again. -/
theorem expand_pathParts :
    Told pathParts ∧ AllSet environment pathParts ∧
      Settings.expand environment "$\x7bDATA\x7d/$ä_1$NONE.ndjson$" = .ok "/srv/$ROOT/x.ndjson$" ∧
      Told unsetParts ∧
      unsetParts.filterMap Part.name? = ["DATA", "ä_1", "NONE"] ++ "ROOT" :: ["", "HOME"] ∧
      (∀ earlier ∈ ["DATA", "ä_1", "NONE"], (environment earlier).isSome = true) ∧
      environment "ROOT" = none ∧
      Settings.expand environment "$\x7bDATA\x7d/$ä_1$NONE.ndjson$$\x7bROOT\x7d$\x7b\x7d$HOME" =
        .error (.unsetVariable "ROOT") := by
  have told : Told pathParts := by decide +kernel
  have told' : Told unsetParts := by decide +kernel
  have set : AllSet environment pathParts := by decide +kernel
  have names : unsetParts.filterMap Part.name? = ["DATA", "ä_1", "NONE"] ++ "ROOT" :: ["", "HOME"] := by
    decide +kernel
  have earlier : ∀ earlier ∈ ["DATA", "ä_1", "NONE"], (environment earlier).isSome = true := by
    decide +kernel
  have unset : environment "ROOT" = none := by decide +kernel
  have filled := (expand_parts told).1 set
  have failed := (expand_parts told').2 _ _ _ names earlier unset
  exact ⟨told, set, filled, told', names, earlier, unset, failed⟩

end Environment

end RegionalTables
