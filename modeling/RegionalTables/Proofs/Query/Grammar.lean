import RegionalTables.Proofs.Query.Cleaning
import RegionalTables.Proofs.Query.Merge

/-! The grammar of query strings: which texts stand for which choices, what is wrong with a parameter
that does not, and which wrong is reported when there are several. -/
namespace RegionalTables.Query

/-- The pairs of a raw query string. -/
def pairsOf (raw : String) : List (String × String) := Text.Form.decode (Arguments.trimmed raw)

def parameterNames : List String :=
  ["region", "level", "parent", "time", "dformat", "labels", "layout", "format", "delimiter", "sort",
    "data"]

/-- What stands between the commas of a list. -/
def commaItems (text : String) : List String := (Text.split ',' text.toList).map String.ofList

/-- Decimal digits of any script, at least one. -/
def IsNumeral (text : String) : Prop :=
  text.toList ≠ [] ∧ ∀ c ∈ text.toList, Text.isDecimalDigit c = true

/-- A single region or the whole country. -/
def IsRegion (text : String) : Prop := text = "DG" ∨ IsNumeral text

def levelNames : List String := ["0", "1", "2", "3", "4"]

/-- Four ASCII digits. -/
def IsYear (digits : List Char) : Prop :=
  digits.length = 4 ∧ ∀ c ∈ digits, Binary64.isDigit c = true

def yearOf (digits : List Char) : UInt16 := (Nat.ofDigitChars 10 digits 0).toUInt16

/-! Texts and the choices they stand for. -/

inductive SpellsRegion : String → RegionChoice → Prop
  | all : SpellsRegion "all" .all
  | ids {text : String} (regions : ∀ item ∈ commaItems text, IsRegion item) :
      SpellsRegion text (.ids (.ofList (commaItems text)))

inductive SpellsLevel : String → LevelChoice → Prop
  | all : SpellsLevel "all" .all
  | levels {text : String} {levels : SortedSet UInt8}
      (known : ∀ item ∈ commaItems text, item ∈ levelNames)
      (same : ∀ n : UInt8, n ∈ levels ↔ toString n.toNat ∈ commaItems text) :
      SpellsLevel text (.levels levels)

inductive SpellsTime : String → TimeChoice → Prop
  | all : SpellsTime "all" .all
  | last : SpellsTime "last" .last
  | year {digits : List Char} (year : IsYear digits) :
      SpellsTime (String.ofList digits) (.year (yearOf digits))
  | between {low high : List Char} (first : IsYear low) (last : IsYear high) :
      SpellsTime (String.ofList (low ++ ':' :: high)) (.range (some (yearOf low)) (some (yearOf high)))
  | upTo {high : List Char} (last : IsYear high) :
      SpellsTime (String.ofList (':' :: high)) (.range none (some (yearOf high)))
  | since {low : List Char} (first : IsYear low) :
      SpellsTime (String.ofList (low ++ [':'])) (.range (some (yearOf low)) none)

/-- The text is a numeral, which is the parent. -/
def SpellsParent (text : String) (parent : Option String) : Prop :=
  IsNumeral text ∧ parent = some text

/-- The values of a parameter that may be given once and stands for `absent` without one. -/
inductive Given (Spells : String → α → Prop) (absent : α) : List String → α → Prop
  | absent : Given Spells absent [] absent
  | once {text : String} {a : α} (spells : Spells text a) : Given Spells absent [text] a

/-- The texts are entries, and the selection asks for what one of them asks for. -/
structure SpellsData (texts : List String) (s : Selection) : Prop where
  given : texts ≠ []
  entries : ∀ text ∈ texts, ∃ e : Entry, e.Valid ∧ e.text = text
  filled : s.Filled
  asks : ∀ d, s.Asks d ↔ ∃ e : Entry, e.Valid ∧ e.text ∈ texts ∧ e.Asks d

open Arguments in
/-- The pairs spell the query. -/
structure Spelled (pairs : List (String × String)) (q : Query) : Prop where
  known : ∀ name, valuesOf name pairs ≠ [] → name ∈ parameterNames
  region : Given SpellsRegion .all (valuesOf "region" pairs) q.region
  level : Given SpellsLevel (.levels (.ofList [1])) (valuesOf "level" pairs) q.level
  parent : Given SpellsParent none (valuesOf "parent" pairs) q.parent
  time : Given SpellsTime .last (valuesOf "time" pairs) q.time
  timeField : Given (fun text x => TimeField.name x = text) .year (valuesOf "dformat" pairs) q.timeField
  labels : Given (fun text x => Labels.text x = text) .id (valuesOf "labels" pairs) q.labels
  layout : Given (fun text x => Layout.name x = text) .long (valuesOf "layout" pairs) q.layout
  format : Given (fun text x => Format.name x = text) .csv (valuesOf "format" pairs) q.format
  delimiter : Given (fun text x => String.singleton (Delimiter.char x) = text) .comma
    (valuesOf "delimiter" pairs) q.delimiter
  sort : Given (fun text x => SortKey.name x = text) .time (valuesOf "sort" pairs) q.sort
  data : SpellsData ((valuesOf "data" pairs).flatMap Entry.split) q.data

open Arguments in
/-- The pairs are in the grammar. -/
structure Grammatical (pairs : List (String × String)) : Prop where
  known : ∀ pair ∈ pairs, pair.2 ≠ "" → pair.1 ∈ parameterNames
  once : ∀ name, name ≠ "data" → (valuesOf name pairs).length ≤ 1
  region : ∀ text ∈ valuesOf "region" pairs, text = "all" ∨ ∀ item ∈ commaItems text, IsRegion item
  level : ∀ text ∈ valuesOf "level" pairs, text = "all" ∨ ∀ item ∈ commaItems text, item ∈ levelNames
  parent : ∀ text ∈ valuesOf "parent" pairs, IsNumeral text
  time : ∀ text ∈ valuesOf "time" pairs, ∃ t, SpellsTime text t
  timeField : ∀ text ∈ valuesOf "dformat" pairs, text ∈ ["year", "date"]
  labels : ∀ text ∈ valuesOf "labels" pairs, text ∈ ["id", "name", "both"]
  layout : ∀ text ∈ valuesOf "layout" pairs, text ∈ ["long", "region", "time"]
  format : ∀ text ∈ valuesOf "format" pairs, text ∈ ["csv", "tsv", "json"]
  delimiter : ∀ text ∈ valuesOf "delimiter" pairs, text ∈ [",", ";"]
  sort : ∀ text ∈ valuesOf "sort" pairs, text ∈ ["time", "region", "value", "measure"]
  data : valuesOf "data" pairs ≠ []
  entries : ∀ text ∈ valuesOf "data" pairs, ∃ entries : List Entry,
    entries ≠ [] ∧ (∀ e ∈ entries, e.Valid) ∧ ",".intercalate (entries.map Entry.text) = text

/-! What is wrong with pairs. -/

/-- A value cut into items; a single one must have no comma. -/
inductive Pieces : ListStyle → String → List String → Prop
  | single {text : String} (plain : ',' ∉ text.toList) : Pieces .single text [text]
  | comma (text : String) : Pieces .comma text (commaItems text)

/-- What is wrong with the values of a parameter whose items are to fit: a second value, a list where
there is none, or the first item that does not fit. -/
inductive Fault (name : String) (standard : Option String) (style : ListStyle)
    (Fits : String → Prop) : List String → Rejection → Prop
  | repeated (first second : String) (others : List String) :
      Fault name standard style Fits (first :: second :: others) (.repeated name)
  | notAList {text : String} (other : standard ≠ some text) (single : style = .single)
      (comma : ',' ∈ text.toList) : Fault name standard style Fits [text] (.notAList name)
  | invalidValue {text item : String} {before after : List String} (other : standard ≠ some text)
      (pieces : Pieces style text (before ++ item :: after))
      (fit : ∀ earlier ∈ before, Fits earlier) (unfit : ¬ Fits item) :
      Fault name standard style Fits [text] (.invalidValue name item)

/-- The names of values that no parameter has, all of them in order. -/
inductive Undeclared (pairs : List (String × String)) : Rejection → Prop
  | names {names : List String} (nonempty : names ≠ [])
      (ascending : names.Pairwise fun a b => compare a b = .lt)
      (undeclared : ∀ name, name ∈ names ↔
        Arguments.valuesOf name pairs ≠ [] ∧ name ∉ parameterNames) :
      Undeclared pairs (.unknownParameters names)

/-- Levels are wrong like other lists, and where `all` is one of several. -/
inductive LevelFault : List String → Rejection → Prop
  | list {values : List String} {r : Rejection}
      (fault : Fault "level" (some "1") .comma (fun item => item ∈ "all" :: levelNames) values r) :
      LevelFault values r
  | mixed {text : String} (known : ∀ item ∈ commaItems text, item ∈ "all" :: levelNames)
      (all : "all" ∈ commaItems text) (several : 1 < (commaItems text).length) :
      LevelFault [text] (.mixedAll "level")

/-- There is no data, or a text that is no entry, the first of which is reported. -/
inductive DataFault : List String → Rejection → Prop
  | missing : DataFault [] .missingData
  | malformed {before after : List String} {text : String}
      (good : ∀ earlier ∈ before, ∃ e : Entry, e.Valid ∧ e.text = earlier)
      (bad : ∀ e : Entry, e.Valid → e.text ≠ text) :
      DataFault (before ++ text :: after) (.malformedEntry text)

open Arguments in
/-- The checks of a query in their order, each with the rejections it leads to. -/
def checks (pairs : List (String × String)) : List (Rejection → Prop) := [
  Undeclared pairs,
  Fault "region" (some "all") .comma IsRegion (valuesOf "region" pairs),
  LevelFault (valuesOf "level" pairs),
  Fault "parent" none .single IsNumeral (valuesOf "parent" pairs),
  Fault "time" (some "last") .single (fun text => ∃ t, SpellsTime text t) (valuesOf "time" pairs),
  Fault "dformat" (some "year") .single (· ∈ ["year", "date"]) (valuesOf "dformat" pairs),
  Fault "labels" (some "id") .single (· ∈ ["id", "name", "both"]) (valuesOf "labels" pairs),
  Fault "layout" (some "long") .single (· ∈ ["long", "region", "time"]) (valuesOf "layout" pairs),
  Fault "format" (some "csv") .single (· ∈ ["csv", "tsv", "json"]) (valuesOf "format" pairs),
  Fault "delimiter" (some ",") .single (· ∈ [",", ";"]) (valuesOf "delimiter" pairs),
  Fault "sort" (some "time") .single (· ∈ ["time", "region", "value", "measure"])
    (valuesOf "sort" pairs),
  DataFault ((valuesOf "data" pairs).flatMap Entry.split)]

/-- The rejection comes from a check, and nothing is wrong with those before it. -/
inductive First : List (Rejection → Prop) → Rejection → Prop
  | here {check : Rejection → Prop} {later : List (Rejection → Prop)} {r : Rejection}
      (fault : check r) : First (check :: later) r
  | later {check : Rejection → Prop} {later : List (Rejection → Prop)} {r : Rejection}
      (good : ∀ fault, ¬ check fault) (first : First later r) : First (check :: later) r

end RegionalTables.Query
