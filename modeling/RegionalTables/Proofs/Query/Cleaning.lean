import RegionalTables.Proofs.Collections
import RegionalTables.Proofs.Query.Entry
import RegionalTables.Query.Reading

/-! What is left of the pairs of a query string. A parameter sees only the values that pairs give to
its name, and only where it may be repeated does their order matter. -/
namespace RegionalTables

namespace Arguments

/-- The values that pairs give to a name, which may be blank for no value. -/
def valuesOf (name : String) (pairs : List (String × String)) : List String :=
  (pairs.filter fun pair => pair.1 == name && !pair.2.isEmpty).map Prod.snd

theorem mem_valuesOf {name text : String} {pairs : List (String × String)} :
    text ∈ valuesOf name pairs ↔ (name, text) ∈ pairs ∧ text ≠ "" := by
  simp only [valuesOf, List.mem_map, List.mem_filter, Bool.and_eq_true, beq_iff_eq,
    Bool.not_eq_true', String.isEmpty_eq_false_iff]
  constructor
  · rintro ⟨⟨_, _⟩, ⟨member, rfl, filled⟩, rfl⟩
    exact ⟨member, filled⟩
  · rintro ⟨member, filled⟩
    exact ⟨_, ⟨member, rfl, filled⟩, rfl⟩

theorem valuesOf_append (name : String) (pairs others : List (String × String)) :
    valuesOf name (pairs ++ others) = valuesOf name pairs ++ valuesOf name others := by
  simp [valuesOf]

theorem valuesOf_eq_nil {name : String} {pairs : List (String × String)}
    (absent : ∀ pair ∈ pairs, pair.1 = name → pair.2 = "") : valuesOf name pairs = [] := by
  rw [valuesOf, List.map_eq_nil_iff, List.filter_eq_nil_iff]
  intro pair member given
  simp only [Bool.and_eq_true, beq_iff_eq, Bool.not_eq_true'] at given
  simp [absent pair member given.1] at given

/-- Pairs of other names count for nothing. -/
theorem valuesOf_cons_of_ne {name : String} {pair : String × String} (other : pair.1 ≠ name)
    (pairs : List (String × String)) : valuesOf name (pair :: pairs) = valuesOf name pairs := by
  simp [valuesOf, other]

theorem valuesOf_cons_self (name : String) {text : String} (filled : text ≠ "")
    (pairs : List (String × String)) :
    valuesOf name ((name, text) :: pairs) = text :: valuesOf name pairs := by
  simp [valuesOf, filled]

theorem valuesOf_cons_blank (name other : String) (pairs : List (String × String)) :
    valuesOf name ((other, "") :: pairs) = valuesOf name pairs := by
  simp [valuesOf]

theorem valuesOf_perm (name : String) {pairs pairs' : List (String × String)}
    (perm : pairs.Perm pairs') : (valuesOf name pairs).Perm (valuesOf name pairs') :=
  (perm.filter _).map _

theorem find?_foldl_add (pairs : List (String × String)) (given : Arguments) (name : String) :
    (pairs.foldl add given).find? name =
      if valuesOf name pairs = [] then given.find? name
      else some ((given.find? name).getD [] ++ valuesOf name pairs) := by
  induction pairs generalizing given with
  | nil => simp [valuesOf]
  | cons pair pairs ih =>
    obtain ⟨other, text⟩ := pair
    by_cases blank : text = ""
    · subst blank
      rw [List.foldl_cons, ih, valuesOf_cons_blank]
      rfl
    · have added : add given (other, text) =
          given.alter other fun values => values.getD [] ++ [text] := by simp [add, blank]
      rw [List.foldl_cons, ih, added, SortedMap.find?_alter]
      by_cases own : name = other
      · subst own
        rw [valuesOf_cons_self _ blank]
        by_cases last : valuesOf name pairs = [] <;> simp [last]
      · rw [if_neg own, valuesOf_cons_of_ne (Ne.symm own)]

/-- A name is present with the values given to it, if there are any. -/
theorem find?_ofPairs (pairs : List (String × String)) (name : String) :
    (ofPairs pairs).find? name =
      if valuesOf name pairs = [] then none else some (valuesOf name pairs) := by
  simp [ofPairs, find?_foldl_add]

theorem values_ofPairs (pairs : List (String × String)) (name : String) :
    (ofPairs pairs).values name = valuesOf name pairs := by
  rw [values, find?_ofPairs]
  by_cases absent : valuesOf name pairs = [] <;> simp [absent]

theorem mem_keys_ofPairs {pairs : List (String × String)} {name : String} :
    name ∈ (ofPairs pairs).keys ↔ valuesOf name pairs ≠ [] := by
  rw [SortedMap.mem_keys_iff, SortedMap.contains, find?_ofPairs]
  by_cases absent : valuesOf name pairs = [] <;> simp [absent]

end Arguments

namespace Parameter

/-! The declared parameters. -/

theorem named?_of_mem {p : Parameter} (declared : p ∈ all) : named? p.name = some p := by
  simp only [all, List.mem_cons, List.not_mem_nil, or_false] at declared
  rcases declared with rfl | rfl | rfl | rfl | rfl | rfl | rfl | rfl | rfl | rfl | rfl <;> rfl

theorem mem_of_named? {name : String} {p : Parameter} (declared : named? name = some p) :
    p ∈ all ∧ p.name = name :=
  ⟨List.mem_of_find?_eq_some declared, by simpa using List.find?_some declared⟩

/-- Only data may be given more than once. -/
theorem name_of_repeatable : ∀ p ∈ all, p.repeatable = true → p.name = "data" := by decide

theorem once_of_comma : ∀ p ∈ all, p.list = .comma → p.repeatable = false := by decide

/-- The standard of a list is a single item. -/
theorem standard_single : ∀ p ∈ all, p.list = .comma → ∀ text ∈ p.standard, ',' ∉ text.toList := by
  decide

theorem standard_of_data : ∀ p ∈ all, p.name = "data" → p.standard = none := by decide

theorem standard_filled : ∀ p ∈ all, ∀ text ∈ p.standard, text ≠ "" := by decide

theorem checkKnown_eq_ok_iff {pairs : List (String × String)} :
    checkKnown (.ofPairs pairs) = .ok () ↔
      ∀ name, Arguments.valuesOf name pairs ≠ [] → (named? name).isSome = true := by
  have unknown : checkKnown (.ofPairs pairs) = .ok () ↔
      ((Arguments.ofPairs pairs).keys.filter fun name => (named? name).isNone) = [] := by
    rw [checkKnown]
    split
    · next none => simp only [none]
    · next some => exact ⟨by simp, fun none => absurd none some⟩
  simp only [unknown, List.filter_eq_nil_iff, Arguments.mem_keys_ofPairs, Option.isNone_iff_eq_none,
    Option.isSome_iff_ne_none, ne_eq]

/-! Cleaning. -/

variable {p : Parameter} {given given' : Arguments}

theorem clean_congr (same : given.values p.name = given'.values p.name) :
    p.clean given = p.clean given' := by
  rw [clean, clean, same]

theorem clean_of_absent (absent : given.values p.name = []) : p.clean given = .ok none := by
  rw [clean, absent]

theorem clean_of_standard {text : String} (only : given.values p.name = [text])
    (standard : p.standard = some text) : p.clean given = .ok none := by
  rw [clean, only]
  simp [standard]

/-- Where one value is allowed, two in another order are as bad as two. -/
theorem clean_of_perm (once : p.repeatable = false)
    (perm : (given.values p.name).Perm (given'.values p.name)) : p.clean given = p.clean given' := by
  match left : given.values p.name, right : given'.values p.name with
  | [], _ =>
    rw [left, right] at perm
    apply clean_congr
    rw [left, right, perm.nil_eq]
  | [_], _ =>
    rw [left, right] at perm
    apply clean_congr
    rw [left, right, perm.singleton_eq]
  | _ :: _ :: _, [] =>
    rw [left, right] at perm
    simp at perm
  | _ :: _ :: _, [_] =>
    rw [left, right] at perm
    simpa using perm.length_eq
  | _ :: _ :: _, _ :: _ :: _ =>
    rw [clean, clean, left, right]
    simp [once]

theorem clean_of_single {text : String} (once : p.repeatable = false)
    (only : given.values p.name = [text]) :
    p.clean given = if p.standard = some text then .ok none else (p.checkedItems text).map some := by
  rw [clean, only]
  simp only [once, List.isEmpty_nil, Bool.not_true, Bool.and_false, Bool.false_eq_true, ↓reduceIte]
  split
  · rfl
  · rw [List.mapM_cons, List.mapM_nil]
    cases p.checkedItems text with
    | error r => rfl
    | ok items =>
      change Except.ok (some [items].flatten) = .ok (some items)
      rw [List.flatten_singleton]

theorem single_of_clean {text : String} {others : List String} {found : Option (List String)}
    (once : p.repeatable = false) (values : given.values p.name = text :: others)
    (cleaned : p.clean given = .ok found) : others = [] := by
  rw [clean, values] at cleaned
  cases others with
  | nil => rfl
  | cons _ _ => simp [once] at cleaned

theorem checkedItems_eq_ok_iff {text : String} {found : List String} :
    p.checkedItems text = .ok found ↔
      p.items text = .ok found ∧ ∀ item ∈ found, p.check item = .ok () := by
  rw [checkedItems, bind_eq_ok_iff]
  constructor
  · rintro ⟨pieces, split, checked⟩
    obtain ⟨_, all, same⟩ := bind_eq_ok_iff.1 checked
    obtain rfl := Except.ok.inj same
    exact ⟨split, forM_eq_ok_iff.1 all⟩
  · rintro ⟨split, all⟩
    exact ⟨found, split, bind_eq_ok_iff.2 ⟨(), forM_eq_ok_iff.2 all, rfl⟩⟩

/-- A text without a comma is the only one with its items. -/
theorem eq_of_items_perm {text text' : String} (single : ',' ∉ text.toList)
    (perm : (Text.split ',' text.toList).Perm (Text.split ',' text'.toList)) : text' = text := by
  rw [Text.split_of_not_mem single] at perm
  have joined := Text.intercalate_split ',' text'.toList
  rw [perm.singleton_eq.symm, List.intercalate_singleton] at joined
  exact String.toList_inj.1 joined.symm

/-- The items of a list in another order are found in that order. -/
theorem clean_of_items_perm (declared : p ∈ all) (list : p.list = .comma) {text text' : String}
    {others : List String} {found : Option (List String)}
    (perm : (Text.split ',' text.toList).Perm (Text.split ',' text'.toList))
    (values : given.values p.name = text :: others) (values' : given'.values p.name = text' :: others)
    (cleaned : p.clean given = .ok found) :
    ∃ found', p.clean given' = .ok found' ∧ Option.Rel List.Perm found found' := by
  have once := once_of_comma p declared list
  obtain rfl := single_of_clean once values cleaned
  rw [clean_of_single once values] at cleaned
  rw [clean_of_single once values']
  split at cleaned
  · next standard =>
    rw [eq_of_items_perm (standard_single p declared list text standard) perm, if_pos standard]
    obtain rfl := Except.ok.inj cleaned
    exact ⟨none, rfl, .none⟩
  · next other =>
    have other' : p.standard ≠ some text' := by
      intro standard
      rw [eq_of_items_perm (standard_single p declared list text' standard) perm.symm] at other
      exact other standard
    rw [if_neg other']
    cases checked : p.checkedItems text with
    | error r => simp [checked, Except.map] at cleaned
    | ok items =>
      rw [checked] at cleaned
      obtain rfl := Except.ok.inj cleaned
      obtain ⟨split, all⟩ := checkedItems_eq_ok_iff.1 checked
      simp only [Parameter.items, list] at split
      obtain rfl := Except.ok.inj split
      have order := perm.map String.ofList
      have checked' : p.checkedItems text' =
          .ok ((Text.split ',' text'.toList).map String.ofList) := by
        refine checkedItems_eq_ok_iff.2 ⟨by simp only [Parameter.items, list], ?_⟩
        intro item member
        exact all item (order.mem_iff.2 member)
      rw [checked']
      exact ⟨_, rfl, .some order⟩

end Parameter

namespace Query

/-- The pieces of all data values, which are to be entries. -/
def entryTexts (given : Arguments) : List String := (given.values "data").flatMap Entry.split

theorem entryTexts_eq_nil_iff {given : Arguments} :
    entryTexts given = [] ↔ given.values "data" = [] := by
  rw [entryTexts, List.flatMap_eq_nil_iff]
  constructor
  · intro pieces
    cases values : given.values "data" with
    | nil => rfl
    | cons text texts =>
      have empty := pieces text (by simp [values])
      simp [Entry.split, Entry.splitFrom_ne_nil] at empty
  · intro absent
    simp [absent]

/-- Data is absent only if it has no pieces, and the pieces are not looked at. -/
theorem items_data (given : Arguments) : items given "data" =
    .ok (if entryTexts given = [] then none else some (entryTexts given)) := by
  obtain ⟨p, data⟩ : ∃ p : Parameter, p = { name := "data", list := .nested, repeatable := true } :=
    ⟨_, rfl⟩
  have declared : Parameter.named? "data" = some p := data ▸ rfl
  have unchecked : p.checkedItems = fun text => pure (Entry.split text) := by
    funext text
    refine Parameter.checkedItems_eq_ok_iff.2 ⟨by rw [data]; rfl, fun item _ => ?_⟩
    rw [data]
    rfl
  simp only [items, declared, Parameter.clean, unchecked, List.mapM_pure, entryTexts_eq_nil_iff]
  rw [data, entryTexts]
  cases given.values "data" with
  | nil => rfl
  | cons text texts =>
    rw [List.flatMap_def, if_neg (List.cons_ne_nil text texts)]
    rfl

end Query

end RegionalTables
