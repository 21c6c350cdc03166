import RegionalTables.Proofs.Query.Grammar

/-! What each parameter is read as, and how it is refused. A reading is decided by what makes it
succeed and what makes it fail, once one of the two is known to hold. -/
namespace RegionalTables

/-- The computation gives exactly the results of `P` and fails with exactly the errors of `F`. -/
structure Decides (x : Except ε α) (P : α → Prop) (F : ε → Prop) : Prop where
  ok : ∀ a, x = .ok a ↔ P a
  error : ∀ e, x = .error e ↔ F e

namespace Decides

variable {x : Except ε α} {P P' : α → Prop} {F F' : ε → Prop}

theorem of_total (ok : ∀ a, P a → x = .ok a) (error : ∀ e, F e → x = .error e)
    (total : (∃ a, P a) ∨ ∃ e, F e) : Decides x P F where
  ok a := by
    refine ⟨fun gives => ?_, ok a⟩
    rcases total with ⟨b, holds⟩ | ⟨e, fault⟩
    · rwa [Except.ok.inj (gives.symm.trans (ok b holds))]
    · exact absurd (gives.symm.trans (error e fault)) (by simp)
  error e := by
    refine ⟨fun gives => ?_, error e⟩
    rcases total with ⟨b, holds⟩ | ⟨d, fault⟩
    · exact absurd (gives.symm.trans (ok b holds)) (by simp)
    · rwa [Except.error.inj (gives.symm.trans (error d fault))]

theorem total (decides : Decides x P F) : (∃ a, P a) ∨ ∃ e, F e := by
  cases given : x with
  | ok a => exact .inl ⟨a, (decides.ok a).1 given⟩
  | error e => exact .inr ⟨e, (decides.error e).1 given⟩

/-- A reading that is computed has no fault. -/
theorem not_fault (decides : Decides x P F) {a : α} (holds : P a) (e : ε) : ¬ F e := by
  intro fault
  exact absurd (((decides.ok a).2 holds).symm.trans ((decides.error e).2 fault)) (by simp)

/-- A further step whose results and faults are known on what the first one gives. -/
theorem bind (decides : Decides x P F) {f : α → Except ε β} {Q : β → Prop} {G : ε → Prop}
    (ok : ∀ b, Q b → ∃ a, P a ∧ f a = .ok b)
    (error : ∀ e, G e → F e ∨ ∃ a, P a ∧ f a = .error e)
    (fault : ∀ e, F e → G e) (total : ∀ a, P a → (∃ b, Q b) ∨ ∃ e, G e) :
    Decides (x >>= f) Q G := by
  apply Decides.of_total
  · intro b holds
    obtain ⟨a, gives, next⟩ := ok b holds
    rw [(decides.ok a).2 gives]
    exact next
  · intro e holds
    rcases error e holds with first | ⟨a, gives, next⟩
    · rw [(decides.error e).2 first]
      rfl
    · rw [(decides.ok a).2 gives]
      exact next
  · rcases decides.total with ⟨a, gives⟩ | ⟨e, first⟩
    · exact total a gives
    · exact .inr ⟨e, fault e first⟩

/-- A further step that cannot fail. -/
theorem map (decides : Decides x P F) {f : α → β} {Q : β → Prop}
    (same : ∀ b, Q b ↔ ∃ a, P a ∧ f a = b) : Decides (x >>= fun a => .ok (f a)) Q F := by
  apply decides.bind
  · intro b holds
    obtain ⟨a, gives, rfl⟩ := (same b).1 holds
    exact ⟨a, gives, rfl⟩
  · exact fun e first => .inl first
  · exact fun e first => first
  · exact fun a gives => .inl ⟨f a, (same _).2 ⟨a, gives, rfl⟩⟩

/-- What is computed after a reading starts from what the reading gives. -/
theorem bind_eq_ok_iff (decides : Decides x P F) {f : α → Except ε β} {b : β} :
    x >>= f = .ok b ↔ ∃ a, P a ∧ f a = .ok b := by
  rw [RegionalTables.bind_eq_ok_iff]
  simp only [decides.ok]

end Decides

namespace Query

/-- After a reading that may fail, the first fault is its own or else one of what follows. -/
theorem bind_eq_error_iff_first {x : Except Rejection α} {P : α → Prop} {F : Rejection → Prop}
    (decides : Decides x P F) {next : α → Except Rejection β} {later : List (Rejection → Prop)}
    (rest : ∀ a, ∀ r, next a = .error r ↔ First later r) (r : Rejection) :
    x >>= next = .error r ↔ First (F :: later) r := by
  constructor
  · intro failed
    cases given : x with
    | error e =>
      rw [given] at failed
      obtain rfl := Except.error.inj failed
      exact .here ((decides.error e).1 given)
    | ok a =>
      rw [given] at failed
      exact .later (decides.not_fault ((decides.ok a).1 given)) ((rest a r).1 failed)
  · rintro (fault | ⟨good, first⟩)
    · rw [(decides.error r).2 fault]
      rfl
    · rcases decides.total with ⟨a, holds⟩ | ⟨e, fault⟩
      · rw [(decides.ok a).2 holds]
        exact (rest a r).2 first
      · exact absurd fault (good e)

end Query

namespace Parameter

open Query

/-! Cleaning a parameter that may be given once. -/

/-- What is left of the values of a parameter: nothing where it is absent or its standard is given,
else its items, which fit. -/
inductive Cleaned (standard : Option String) (style : ListStyle) (Fits : String → Prop) :
    List String → Option (List String) → Prop
  | absent : Cleaned standard style Fits [] none
  | standard {text : String} (given : standard = some text) :
      Cleaned standard style Fits [text] none
  | items {text : String} {items : List String} (other : standard ≠ some text)
      (pieces : Pieces style text items) (fit : ∀ item ∈ items, Fits item) :
      Cleaned standard style Fits [text] (some items)

section

variable {p : Parameter} {given : Arguments} {Fits : String → Prop}

theorem items_of_pieces {style : ListStyle} (list : p.list = style) {text : String}
    {items : List String} (pieces : Pieces style text items) : p.items text = .ok items := by
  cases pieces with
  | single plain => simp [Parameter.items, list, plain]
  | comma => simp [Parameter.items, list, commaItems]

theorem checkedItems_of_unfit {text item : String} {before after : List String}
    (pieces : Pieces p.list text (before ++ item :: after))
    (fit : ∀ earlier ∈ before, p.accepts earlier = true) (unfit : p.accepts item = false) :
    p.checkedItems text = .error (.invalidValue p.name item) := by
  have failed : (before ++ item :: after).forM p.check = .error (.invalidValue p.name item) :=
    forM_first_error (fun earlier member => if_pos (fit earlier member)) (if_neg (by simp [unfit]))
  rw [checkedItems, items_of_pieces rfl pieces]
  change ((before ++ item :: after).forM p.check >>= fun _ => _) = _
  rw [failed]
  rfl

theorem exists_pieces {style : ListStyle} (flat : style ≠ .nested) (text : String) :
    (∃ items, Pieces style text items) ∨ style = .single ∧ ',' ∈ text.toList := by
  cases style with
  | single =>
    by_cases comma : ',' ∈ text.toList
    · exact .inr ⟨rfl, comma⟩
    · exact .inl ⟨_, .single comma⟩
  | comma => exact .inl ⟨_, .comma text⟩
  | nested => contradiction

/-- A parameter that may be given once is cleaned or at fault as its values say. -/
theorem clean_decides (once : p.repeatable = false) (flat : p.list ≠ .nested)
    (fits : ∀ text, p.accepts text = true ↔ Fits text) :
    Decides (p.clean given) (Cleaned p.standard p.list Fits (given.values p.name))
      (Fault p.name p.standard p.list Fits (given.values p.name)) := by
  have unfits {item : String} (unfit : ¬ Fits item) : p.accepts item = false :=
    Bool.eq_false_iff.2 (mt (fits item).1 unfit)
  apply Decides.of_total
  · intro found cleaned
    generalize values : given.values p.name = texts at cleaned
    cases cleaned with
    | absent => exact clean_of_absent values
    | standard standard => exact clean_of_standard values standard
    | items other pieces fit =>
      have checked := checkedItems_eq_ok_iff.2 ⟨items_of_pieces rfl pieces, fun item member =>
        if_pos ((fits item).2 (fit item member))⟩
      rw [clean_of_single once values, if_neg other, checked]
      rfl
  · intro r fault
    generalize values : given.values p.name = texts at fault
    cases fault with
    | repeated first second others => simp [clean, values, once]
    | notAList other single comma =>
      have refused : ∀ text : String, ',' ∈ text.toList →
          p.checkedItems text = .error (.notAList p.name) := by
        intro text comma
        simp [checkedItems, Parameter.items, single, comma, bind, Except.bind]
      rw [clean_of_single once values, if_neg other, refused _ comma]
      rfl
    | invalidValue other pieces fit unfit =>
      rw [clean_of_single once values, if_neg other, checkedItems_of_unfit pieces
        (fun earlier member => (fits earlier).2 (fit earlier member)) (unfits unfit)]
      rfl
  · rcases given.values p.name with _ | ⟨text, _ | ⟨second, others⟩⟩
    · exact .inl ⟨none, .absent⟩
    · by_cases standard : p.standard = some text
      · exact .inl ⟨none, .standard standard⟩
      rcases exists_pieces flat text with ⟨items, pieces⟩ | ⟨single, comma⟩
      · rcases forall_or_first Fits items with fit | ⟨before, item, after, rfl, fit, unfit⟩
        · exact .inl ⟨some items, .items standard pieces fit⟩
        · exact .inr ⟨_, .invalidValue standard pieces fit unfit⟩
      · exact .inr ⟨_, .notAList standard single comma⟩
    · exact .inr ⟨_, .repeated text second others⟩

end

end Parameter

/-! Patterns. -/

namespace Text

theorem isDecimalDigit_of_isDigit {c : Char} (digit : Binary64.isDigit c = true) :
    isDecimalDigit c = true := by
  simp only [Binary64.isDigit, Bool.and_eq_true, decide_eq_true_eq, Char.le_def,
    UInt32.le_iff_toNat_le] at digit
  have first : (0x30, 0x39) ∈ decimalDigitRanges := List.mem_cons_self
  refine List.any_eq_true.2 ⟨_, first, ?_⟩
  simpa using digit

end Text

namespace Pattern

variable {p : Pattern} {cs : List Char}

theorem accepts_nil_iff : accepts [] cs = true ↔ cs = [] := by
  rw [accepts, List.isEmpty_iff]

theorem accepts_char_iff {c : Char} :
    accepts (.char c :: p) cs = true ↔ ∃ rest, cs = c :: rest ∧ accepts p rest = true := by
  cases cs with
  | nil => simp [accepts]
  | cons d cs =>
    simp only [accepts, Bool.and_eq_true, beq_iff_eq]
    constructor
    · rintro ⟨rfl, rest⟩
      exact ⟨cs, rfl, rest⟩
    · rintro ⟨rest, same, accepted⟩
      obtain ⟨rfl, rfl⟩ := List.cons.inj same
      exact ⟨rfl, accepted⟩

theorem accepts_digits_iff {count : Nat} : accepts (.digits count :: p) cs = true ↔
    ∃ front rest, cs = front ++ rest ∧ front.length = count ∧
      (∀ c ∈ front, Text.isDecimalDigit c = true) ∧ accepts p rest = true := by
  simp only [accepts, Bool.and_eq_true, beq_iff_eq, List.all_eq_true]
  constructor
  · rintro ⟨⟨length, digits⟩, rest⟩
    exact ⟨cs.take count, cs.drop count, (List.take_append_drop count cs).symm, length, digits, rest⟩
  · rintro ⟨front, rest, rfl, rfl, digits, accepted⟩
    simpa using ⟨digits, accepted⟩

theorem accepts_someDigits_iff : accepts [.someDigits] cs = true ↔
    cs ≠ [] ∧ ∀ c ∈ cs, Text.isDecimalDigit c = true := by
  have run : cs.takeWhile Text.isDecimalDigit ++
      cs.drop (cs.takeWhile Text.isDecimalDigit).length = cs :=
    List.prefix_iff_eq_append.1 (List.takeWhile_prefix _)
  simp only [accepts, Bool.and_eq_true, Bool.not_eq_true', List.isEmpty_eq_false_iff,
    List.isEmpty_iff]
  constructor
  · rintro ⟨nonempty, nothing⟩
    rw [nothing, List.append_nil] at run
    rw [← run]
    exact ⟨nonempty, List.all_eq_true.1 List.all_takeWhile⟩
  · rintro ⟨nonempty, digits⟩
    have whole : (cs ++ []).takeWhile Text.isDecimalDigit = cs ++ [].takeWhile Text.isDecimalDigit :=
      List.takeWhile_append_of_pos digits
    rw [List.append_nil, List.takeWhile_nil, List.append_nil] at whole
    rw [whole]
    exact ⟨nonempty, List.drop_length⟩

end Pattern

namespace Query

/-! Parameters that hold one text. -/

theorem Pieces.eq_of_single {text item : String} {before after : List String}
    (pieces : Pieces .single text (before ++ item :: after)) : item = text ∧ ',' ∉ text.toList := by
  generalize whole : before ++ item :: after = items at pieces
  cases pieces with
  | single plain =>
    cases before with
    | nil => exact ⟨(List.cons.inj whole).1, plain⟩
    | cons first before => simp at whole

theorem Fault.of_unfit {name text : String} {standard : Option String} {Fits : String → Prop}
    (other : standard ≠ some text) (plain : ',' ∉ text.toList) (unfit : ¬ Fits text) :
    Fault name standard .single Fits [text] (.invalidValue name text) :=
  @Fault.invalidValue name standard .single Fits text text [] [] other (.single plain)
    (fun _ member => by contradiction) unfit

/-- How a parameter that holds one text is read: `step` turns a cleaned text into what it spells, or
refuses it although it was accepted. -/
structure SingleField (p : Parameter) (Spells : String → α → Prop) (absent : α)
    (step : Option String → Except Rejection α) : Prop where
  once : p.repeatable = false
  single : p.list = .single
  named : Parameter.named? p.name = some p
  nothing : step none = .ok absent
  standard : ∀ text ∈ p.standard, Spells text absent
  plain : ∀ text a, Spells text a → p.standard ≠ some text → ',' ∉ text.toList
  reads : ∀ text a, Spells text a → p.accepts text = true ∧ step (some text) = .ok a
  refuses : ∀ text, p.accepts text = true → (∀ a, ¬ Spells text a) →
    step (some text) = .error (.invalidValue p.name text)

namespace SingleField

variable {p : Parameter} {Spells : String → α → Prop} {absent : α}
  {step : Option String → Except Rejection α} (field : SingleField p Spells absent step)
  {given : Arguments}

include field

theorem item_eq : item given p.name = (p.clean given).map fun found => found.bind List.head? := by
  rw [item, items, field.named]

theorem clean_decides : Decides (p.clean given)
    (Parameter.Cleaned p.standard .single (p.accepts · = true) (given.values p.name))
    (Fault p.name p.standard .single (p.accepts · = true) (given.values p.name)) := by
  have flat : p.list ≠ .nested := by simp [field.single]
  have decides : Decides (p.clean given) _ _ :=
    Parameter.clean_decides field.once flat fun _ => Iff.rfl
  rwa [field.single] at decides

theorem read_of_none (cleaned : p.clean given = .ok none) :
    item given p.name >>= step = .ok absent := by
  rw [field.item_eq, cleaned]
  exact field.nothing

theorem read_of_text {text : String} (cleaned : p.clean given = .ok (some [text])) :
    item given p.name >>= step = step (some text) := by
  rw [field.item_eq, cleaned]
  rfl

theorem read_of_error {r : Rejection} (refused : p.clean given = .error r) :
    item given p.name >>= step = .error r := by
  rw [field.item_eq, refused]
  rfl

/-- The parameter is read as its values spell it, and refused where they spell nothing. -/
theorem decides : Decides (item given p.name >>= step)
    (Given Spells absent (given.values p.name))
    (Fault p.name p.standard .single (fun text => ∃ a, Spells text a) (given.values p.name)) := by
  have cleaned : Decides (p.clean given) _ _ := field.clean_decides
  apply Decides.of_total
  · intro a spelled
    generalize values : given.values p.name = texts at spelled cleaned
    cases spelled with
    | absent => exact field.read_of_none ((cleaned.ok _).2 .absent)
    | @once text a spells =>
      obtain ⟨accepted, read⟩ := field.reads text a spells
      by_cases standard : p.standard = some text
      · have same := (field.reads text absent (field.standard text standard)).2
        rw [Except.ok.inj (read.symm.trans same)]
        exact field.read_of_none ((cleaned.ok _).2 (.standard standard))
      · have plain := field.plain text a spells standard
        have fits : ∀ own ∈ [text], p.accepts own = true := by simpa using accepted
        rw [field.read_of_text ((cleaned.ok _).2 (.items standard (.single plain) fits)), read]
  · intro r fault
    generalize values : given.values p.name = texts at fault cleaned
    cases fault with
    | repeated first second others => exact field.read_of_error ((cleaned.error _).2 (.repeated _ _ _))
    | notAList other single comma =>
      exact field.read_of_error ((cleaned.error _).2 (.notAList other single comma))
    | @invalidValue text item before after other pieces fit unfit =>
      obtain ⟨rfl, plain⟩ := pieces.eq_of_single
      by_cases accepted : p.accepts item = true
      · have fits : ∀ own ∈ [item], p.accepts own = true := by simpa using accepted
        rw [field.read_of_text ((cleaned.ok _).2 (.items other (.single plain) fits))]
        exact field.refuses item accepted (not_exists.1 unfit)
      · exact field.read_of_error ((cleaned.error _).2 (.of_unfit other plain accepted))
  · rcases given.values p.name with _ | ⟨text, _ | ⟨second, others⟩⟩
    · exact .inl ⟨_, .absent⟩
    · by_cases spelled : ∃ a, Spells text a
      · obtain ⟨a, spells⟩ := spelled
        exact .inl ⟨a, .once spells⟩
      · have other : p.standard ≠ some text := fun standard =>
          spelled ⟨absent, field.standard text standard⟩
        by_cases comma : ',' ∈ text.toList
        · exact .inr ⟨_, .notAList other rfl comma⟩
        · exact .inr ⟨_, .of_unfit other comma spelled⟩
    · exact .inr ⟨_, .repeated text second others⟩

end SingleField

end Query

end RegionalTables
