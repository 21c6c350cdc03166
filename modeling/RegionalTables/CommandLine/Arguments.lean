/-! The arguments of the program. Options and operands may mix; after `--` everything is an
operand. An option that every command takes may stand before or after the command's name, and
counts where it stands last. -/
namespace RegionalTables.CommandLine

inductive CacheAction where
  | stats
  | clear
  deriving DecidableEq

inductive Command where
  | query (text : String) (debug noCache : Bool)
  | filter (text : String)
  | validate (text : String)
  | cache (action : CacheAction)
  deriving DecidableEq

/-- The places in the tree of commands, each with options and a help page of its own. -/
inductive Place where
  | top
  | query
  | filter
  | validate
  | cache
  | stats
  | clear
  | help
  | cacheHelp
  deriving DecidableEq

structure Invocation where
  config : Option String
  command : Command
  deriving DecidableEq

inductive Request where
  | run (i : Invocation)
  | help (place : Place)
  | version
  deriving DecidableEq

namespace Place

/-- The commands below a place. -/
def below : Place → List (String × Place)
  | top => [("query", query), ("filter", filter), ("validate", validate), ("cache", cache),
      ("help", help)]
  | cache => [("stats", stats), ("clear", clear), ("help", cacheHelp)]
  | _ => []

/-- The rest of the arguments names the place whose help page is wanted. -/
def explains (place : Place) : Bool := place = help || place = cacheHelp

def below? (place : Place) (name : String) : Option Place := place.below.lookup name

/-- The switches of a place besides those for help and version. -/
def switches : Place → List String
  | query => ["debug", "no-cache"]
  | _ => []

def operands : Place → Nat
  | query | filter | validate => 1
  | _ => 0

/-- The place that a path of names leads to. -/
def follow? (place : Place) : List String → Option Place
  | [] => some place
  | name :: path => (place.below? name).bind (follow? · path)

end Place

/-- What stands at one place. -/
structure Given where
  config : Option String := none
  switches : List String := []
  operands : List String := []

/-- What one place makes of the arguments. -/
inductive Scan where
  | ends (given : Given)
  | descends (given : Given) (place : Place) (rest : List String)
  | answers (r : Request)
  | wrong

/-- A value may be a lone dash, but nothing else that starts with one, and is not empty. -/
def isValue (s : String) : Bool := s != "" && (!s.startsWith "-" || s == "-")

namespace Given

/-- Options and switches are given once. -/
def withConfig? (g : Given) (value : String) : Option Given :=
  if g.config.isSome || value == "" then none else some { g with config := some value }

def withSwitch? (g : Given) (name : String) : Option Given :=
  if g.switches.contains name then none else some { g with switches := name :: g.switches }

def withOperand? (place : Place) (g : Given) (text : String) : Option Given :=
  if g.operands.length < place.operands then some { g with operands := g.operands ++ [text] }
  else none

end Given

inductive Token where
  | terminator
  | long (name : String) (value : Option String)
  | short (letter : Char) (rest : List Char)
  | word (text : String)

def token (text : String) : Token :=
  match text.toList with
  | ['-', '-'] => .terminator
  | '-' :: '-' :: cs =>
    let name := String.ofList (cs.takeWhile (· != '='))
    match cs.dropWhile (· != '=') with
    | '=' :: value => .long name (some (String.ofList value))
    | _ => .long name none
  | '-' :: c :: rest => .short c rest
  | _ => .word text

/-- Reads the arguments at one place, as far as they belong to it. -/
def scan (place : Place) (g : Given) : List String → Scan
  | [] => .ends g
  | text :: rest =>
    match token text with
    | .terminator =>
      match rest.foldl (fun g text => g.bind (Given.withOperand? place · text)) (some g) with
      | some g => .ends g
      | none => .wrong
    | .word text =>
      match place.below? text with
      | some next =>
        if next.explains then
          match place.follow? rest with
          | some place => .answers (.help place)
          | none => .wrong
        else .descends g next rest
      | none =>
        match g.withOperand? place text with
        | some g => scan place g rest
        | none => .wrong
    | .long "config" (some value) =>
      match g.withConfig? value with
      | some g => scan place g rest
      | none => .wrong
    | .long "config" none => scanValue place g rest
    | .long name value =>
      if value.isSome then .wrong
      else if name = "help" then .answers (.help place)
      else if name = "version" ∧ place = .top then .answers .version
      else if place.switches.contains name then
        match g.withSwitch? name with
        | some g => scan place g rest
        | none => .wrong
      else .wrong
    | .short 'c' [] => scanValue place g rest
    | .short 'c' value =>
      match g.withConfig? (String.ofList (if value.head? = some '=' then value.drop 1 else value)) with
      | some g => scan place g rest
      | none => .wrong
    | .short 'h' _ => .answers (.help place)
    | .short letter _ => if letter = 'V' ∧ place = .top then .answers .version else .wrong
where
  /-- The path of a configuration file as an argument of its own. -/
  scanValue (place : Place) (g : Given) : List String → Scan
    | [] => .wrong
    | value :: rest =>
      if isValue value then
        match g.withConfig? value with
        | some g => scan place g rest
        | none => .wrong
      else .wrong

/-- The command at a place, once it has all it needs. -/
def command? (place : Place) (g : Given) : Option Command :=
  match place, g.operands with
  | .query, [text] => some (.query text (g.switches.contains "debug") (g.switches.contains "no-cache"))
  | .filter, [text] => some (.filter text)
  | .validate, [text] => some (.validate text)
  | .stats, [] => some (.cache .stats)
  | .clear, [] => some (.cache .clear)
  | _, _ => none

/-- Follows commands down; `fuel` bounds their number. -/
def requestFrom (fuel : Nat) (config : Option String) (place : Place) (arguments : List String) :
    Option Request :=
  match scan place {} arguments with
  | .wrong => none
  | .answers r => some r
  | .ends g => (command? place g).map fun c => .run ⟨g.config <|> config, c⟩
  | .descends g next rest =>
    match fuel with
    | 0 => none
    | fuel + 1 => requestFrom fuel (g.config <|> config) next rest

/-- What the arguments ask for; `none` if they make no sense. -/
def request? (arguments : List String) : Option Request :=
  requestFrom arguments.length none .top arguments

end RegionalTables.CommandLine
