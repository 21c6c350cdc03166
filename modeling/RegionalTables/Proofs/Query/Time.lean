import RegionalTables.Proofs.Query.Checks
import RegionalTables.Proofs.Query.Fields

/-! The time of a query. Its patterns take digits of any script, but a year is read from ASCII digits
alone, so some accepted texts are refused in the end. -/
namespace RegionalTables.Query

/-- Four decimal digits of any script, of which only those of ASCII are a year. -/
def IsYearLike (digits : List Char) : Prop :=
  digits.length = 4 ∧ ∀ c ∈ digits, Text.isDecimalDigit c = true

theorem IsYear.like {digits : List Char} (year : IsYear digits) : IsYearLike digits :=
  ⟨year.1, fun c member => Text.isDecimalDigit_of_isDigit (year.2 c member)⟩

theorem IsYearLike.not_mem {digits : List Char} (like : IsYearLike digits) {c : Char}
    (other : Text.isDecimalDigit c = false) : c ∉ digits := by
  intro member
  rw [like.2 c member] at other
  contradiction

theorem IsYearLike.ne_nil {digits : List Char} (like : IsYearLike digits) : digits ≠ [] := by
  rintro rfl
  have length := like.1
  contradiction

/-- Four digits are below 65536. -/
theorem IsYear.small {digits : List Char} (year : IsYear digits) :
    Nat.ofDigitChars 10 digits 0 < 65536 := by
  obtain ⟨length, ascii⟩ := year
  match digits, length with
  | [a, b, c, d], _ =>
    have value {e : Char} (digit : Binary64.isDigit e = true) : e.toNat - 48 ≤ 9 := by
      simp only [Binary64.isDigit, Bool.and_eq_true, decide_eq_true_eq, Char.le_def,
        UInt32.le_iff_toNat_le] at digit
      have high : ('9' : Char).val.toNat = 57 := rfl
      have same : e.val.toNat = e.toNat := rfl
      omega
    have first := value (ascii a (by simp))
    have second := value (ascii b (by simp))
    have third := value (ascii c (by simp))
    have fourth := value (ascii d (by simp))
    have zero : '0'.toNat = 48 := rfl
    simp only [Nat.ofDigitChars, List.foldl_cons, List.foldl_nil, zero]
    omega

theorem bound_of_year (text : String) {digits : List Char} (year : IsYear digits) :
    bound text digits = .ok (some (yearOf digits)) := by
  have nonempty : digits.isEmpty = false := by simpa using year.like.ne_nil
  have ascii : digits.all Binary64.isDigit = true := List.all_eq_true.2 year.2
  simp [bound, nonempty, ascii, year.small, yearOf]

theorem bound_of_unread (text : String) {digits : List Char} (like : IsYearLike digits)
    (other : ¬ IsYear digits) : bound text digits = .error (timeRejected text) := by
  have nonempty : digits.isEmpty = false := by simpa using like.ne_nil
  have script : digits.all Binary64.isDigit = false :=
    Bool.eq_false_iff.2 fun ascii => other ⟨like.1, List.all_eq_true.1 ascii⟩
  simp [bound, nonempty, script]

theorem readTime_range {low : List Char} (plain : ':' ∉ low) (high : List Char) :
    readTime (String.ofList (low ++ ':' :: high)) = do
      return .range (← bound (String.ofList (low ++ ':' :: high)) low)
        (← bound (String.ofList (low ++ ':' :: high)) high) := by
  have word {w : String} (none : ':' ∉ w.toList) : String.ofList (low ++ ':' :: high) ≠ w := by
    rintro rfl
    simp at none
  rw [readTime, if_neg (word (by decide)), if_neg (word (by decide)), String.toList_ofList,
    Text.cut?_append plain]

theorem readTime_year {digits : List Char} (like : IsYearLike digits) :
    readTime (String.ofList digits) = (bound (String.ofList digits) digits >>= fun
      | some year => .ok (.year year)
      | none => .error (timeRejected (String.ofList digits))) := by
  have word {w : String} {c : Char} (member : c ∈ w.toList) (other : Text.isDecimalDigit c = false) :
      String.ofList digits ≠ w := by
    rintro rfl
    rw [String.toList_ofList] at member
    exact like.not_mem other member
  rw [readTime, if_neg (word (c := 'a') (by decide) (by decide)),
    if_neg (word (c := 'a') (by decide) (by decide)), String.toList_ofList,
    Text.cut?_of_not_mem (like.not_mem (by decide))]
  rfl

/-- The texts that the patterns of a time accept. -/
inductive TimeLike : String → Prop
  | all : TimeLike "all"
  | last : TimeLike "last"
  | year {digits : List Char} (year : IsYearLike digits) : TimeLike (String.ofList digits)
  | between {low high : List Char} (first : IsYearLike low) (last : IsYearLike high) :
      TimeLike (String.ofList (low ++ ':' :: high))
  | upTo {high : List Char} (last : IsYearLike high) : TimeLike (String.ofList (':' :: high))
  | since {low : List Char} (first : IsYearLike low) : TimeLike (String.ofList (low ++ [':']))

theorem SpellsTime.like {text : String} {time : TimeChoice} (spells : SpellsTime text time) :
    TimeLike text := by
  cases spells with
  | all => exact .all
  | last => exact .last
  | year year => exact .year year.like
  | between first last => exact .between first.like last.like
  | upTo last => exact .upTo last.like
  | since first => exact .since first.like

theorem TimeLike.plain {text : String} (like : TimeLike text) : ',' ∉ text.toList := by
  have digits {ds : List Char} (like : IsYearLike ds) : ',' ∉ ds := like.not_mem (by decide)
  cases like with
  | all | last => decide
  | year year => simpa using digits year
  | between first last => simp [digits first, digits last]
  | upTo last => simp [digits last]
  | since first => simp [digits first]

def timeParameter : Parameter := {
  name := "time"
  standard := some "last"
  choices := ["all", "last"]
  patterns := [[.digits 4], [.digits 4, .char ':', .digits 4], [.char ':', .digits 4],
    [.digits 4, .char ':']] }

theorem accepts_year_iff {p : Pattern} {cs : List Char} :
    Pattern.accepts (.digits 4 :: p) cs = true ↔
      ∃ year rest, cs = year ++ rest ∧ IsYearLike year ∧ p.accepts rest = true := by
  simp only [Pattern.accepts_digits_iff, IsYearLike, and_assoc]

theorem accepts_time_iff (text : String) : timeParameter.accepts text = true ↔ TimeLike text := by
  obtain ⟨cs, rfl⟩ : ∃ cs, text = String.ofList cs := ⟨text.toList, String.ofList_toList.symm⟩
  have options : timeParameter.accepts (String.ofList cs) = true ↔
      (String.ofList cs = "all" ∨ String.ofList cs = "last") ∨ Pattern.accepts [.digits 4] cs = true ∨
        Pattern.accepts [.digits 4, .char ':', .digits 4] cs = true ∨
        Pattern.accepts [.char ':', .digits 4] cs = true ∨
        Pattern.accepts [.digits 4, .char ':'] cs = true := by
    simp [timeParameter, Parameter.accepts]
  simp only [options, accepts_year_iff, Pattern.accepts_char_iff, Pattern.accepts_nil_iff]
  constructor
  · rintro ((all | last) | ⟨year, _, rfl, like, rfl⟩ |
      ⟨low, _, rfl, first, _, rfl, high, _, rfl, last, rfl⟩ | ⟨_, rfl, high, _, rfl, last, rfl⟩ |
      ⟨low, _, rfl, first, _, rfl, rfl⟩)
    · rw [all]
      exact .all
    · rw [last]
      exact .last
    · simpa using TimeLike.year like
    · simpa using TimeLike.between first last
    · simpa using TimeLike.upTo last
    · exact .since first
  · intro like
    generalize whole : String.ofList cs = text at like
    cases like with
    | all => exact .inl (.inl rfl)
    | last => exact .inl (.inr rfl)
    | @year digits year =>
      obtain rfl := String.ofList_inj.1 whole
      exact .inr (.inl ⟨cs, [], by simp, year, rfl⟩)
    | @between low high first last =>
      obtain rfl := String.ofList_inj.1 whole
      exact .inr (.inr (.inl ⟨low, _, rfl, first, _, rfl, high, [], by simp, last, rfl⟩))
    | @upTo high last =>
      obtain rfl := String.ofList_inj.1 whole
      exact .inr (.inr (.inr (.inl ⟨_, rfl, high, [], by simp, last, rfl⟩)))
    | @since low first =>
      obtain rfl := String.ofList_inj.1 whole
      exact .inr (.inr (.inr (.inr ⟨low, _, rfl, first, _, rfl, rfl⟩)))

theorem readTime_of_spells {text : String} {time : TimeChoice} (spells : SpellsTime text time) :
    readTime text = .ok time := by
  cases spells with
  | all | last => rfl
  | year year =>
    rw [readTime_year year.like, bound_of_year _ year]
    rfl
  | between first last =>
    rw [readTime_range (first.like.not_mem (by decide)), bound_of_year _ first, bound_of_year _ last]
    rfl
  | @upTo high last =>
    have read := readTime_range List.not_mem_nil high
    rw [List.nil_append, bound_of_year _ last] at read
    exact read
  | since first =>
    rw [readTime_range (first.like.not_mem (by decide)), bound_of_year _ first]
    rfl

theorem readTime_of_unspelled {text : String} (like : TimeLike text)
    (other : ∀ time, ¬ SpellsTime text time) : readTime text = .error (timeRejected text) := by
  cases like with
  | all => exact absurd .all (other _)
  | last => exact absurd .last (other _)
  | year year =>
    rw [readTime_year year, bound_of_unread _ year fun year => other _ (.year year)]
    rfl
  | @between low high first last =>
    rw [readTime_range (first.not_mem (by decide))]
    by_cases year : IsYear low
    · have unread : ¬ IsYear high := fun last => other _ (.between year last)
      rw [bound_of_year _ year, bound_of_unread _ last unread]
      rfl
    · rw [bound_of_unread _ first year]
      rfl
  | @upTo high last =>
    have read := readTime_range List.not_mem_nil high
    rw [List.nil_append, bound_of_unread _ last fun last => other _ (.upTo last)] at read
    exact read
  | since first =>
    rw [readTime_range (first.not_mem (by decide)),
      bound_of_unread _ first fun first => other _ (.since first)]
    rfl

theorem time_decides (given : Arguments) : Decides (item given "time" >>= chosenTime)
    (Given SpellsTime .last (given.values "time"))
    (Fault "time" (some "last") .single (fun text => ∃ t, SpellsTime text t)
      (given.values "time")) := by
  have field : SingleField timeParameter SpellsTime .last chosenTime := by
    constructor
    case once => rfl
    case single => rfl
    case named => rfl
    case nothing => rfl
    case standard =>
      rintro text standard
      obtain rfl := Option.some.inj standard
      exact .last
    case plain => exact fun text time spells _ => spells.like.plain
    case reads => exact fun text time spells =>
      ⟨(accepts_time_iff text).2 spells.like, readTime_of_spells spells⟩
    case refuses => exact fun text accepted other =>
      readTime_of_unspelled ((accepts_time_iff text).1 accepted) other
  exact field.decides

end RegionalTables.Query
