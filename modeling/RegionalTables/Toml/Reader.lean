import RegionalTables.Toml.Scalar

/-! Reading TOML text. Readers give what they read and the rest of the text. -/
namespace RegionalTables.Toml

def isBlank (c : Char) : Bool := c == ' ' || c == '\t'

/-- Characters that may stand nowhere but in a line end. -/
def isControl (c : Char) : Bool := c.toNat < 0x20 && c != '\t' || c.toNat == 0x7F

def skipBlank (cs : List Char) : List Char := cs.dropWhile isBlank

def skipComment : List Char → List Char
  | '#' :: rest => rest.dropWhile fun c => !isControl c
  | cs => cs

/-- The text after a line end, which the end of the text also is. -/
def afterLineEnd? : List Char → Option (List Char)
  | [] => some []
  | '\n' :: rest => some rest
  | '\r' :: '\n' :: rest => some rest
  | _ => none

/-- Passes over what may follow an expression on its line. -/
def endLine? (cs : List Char) : Option (List Char) := afterLineEnd? (skipComment (skipBlank cs))

/-- Passes over blanks, comments and line ends. -/
def skipGap (fuel : Nat) (cs : List Char) : List Char :=
  match fuel, skipBlank cs with
  | fuel + 1, '\n' :: rest => skipGap fuel rest
  | fuel + 1, '\r' :: '\n' :: rest => skipGap fuel rest
  | fuel + 1, '#' :: rest => skipGap fuel (skipComment ('#' :: rest))
  | _, cs => cs

def gap (cs : List Char) : List Char := skipGap cs.length cs

/-- A character written as so many hexadecimal digits. -/
def codePoint? (digits : Nat) (cs : List Char) : Option (Char × List Char) :=
  let code := cs.take digits
  let n := numberIn 16 code
  if code.length = digits ∧ code.all isHexDigit ∧ (n < 0xD800 ∨ 0xDFFF < n ∧ n < 0x110000) then
    some (Char.ofNat n, cs.drop digits)
  else none

/-- The rest of an escape after its backslash. -/
def escaped? : List Char → Option (Char × List Char)
  | '"' :: rest => some ('"', rest)
  | '\\' :: rest => some ('\\', rest)
  | 'b' :: rest => some ('\x08', rest)
  | 'f' :: rest => some ('\x0c', rest)
  | 'n' :: rest => some ('\n', rest)
  | 'r' :: rest => some ('\r', rest)
  | 't' :: rest => some ('\t', rest)
  | 'e' :: rest => some ('\x1b', rest)
  | 'x' :: rest => codePoint? 2 rest
  | 'u' :: rest => codePoint? 4 rest
  | 'U' :: rest => codePoint? 8 rest
  | _ => none

/-- A string up to its closing quote; `done` holds its characters in reverse. -/
def basicTail (fuel : Nat) (done : List Char) (cs : List Char) : Option (List Char × List Char) :=
  match fuel, cs with
  | _, '"' :: rest => some (done.reverse, rest)
  | fuel + 1, '\\' :: rest =>
    match escaped? rest with
    | some (c, rest) => basicTail fuel (c :: done) rest
    | none => none
  | fuel + 1, c :: rest => if isControl c then none else basicTail fuel (c :: done) rest
  | _, _ => none

def literalTail (cs : List Char) : Option (List Char × List Char) :=
  let text := cs.takeWhile fun c => c != '\'' && !isControl c
  match cs.drop text.length with
  | '\'' :: rest => some (text, rest)
  | _ => none

/-- Up to two quotes before the three that close a string belong to it. -/
def closing? (quote : Char) (cs : List Char) : Option (List Char × List Char) :=
  let quotes := min 5 (cs.takeWhile (· == quote)).length
  if quotes < 3 then none else some (List.replicate (quotes - 3) quote, cs.drop quotes)

/-- Passes over blanks and line ends. -/
def skipLines (fuel : Nat) (cs : List Char) : List Char :=
  match fuel, skipBlank cs with
  | fuel + 1, '\n' :: rest => skipLines fuel rest
  | fuel + 1, '\r' :: '\n' :: rest => skipLines fuel rest
  | _, cs => cs

/-- A backslash at the end of a line takes all blanks and line ends after it away. -/
def continuation? (cs : List Char) : Option (List Char) :=
  match skipBlank cs with
  | '\n' :: _ | '\r' :: '\n' :: _ => some (skipLines cs.length cs)
  | _ => none

def multilineTail (fuel : Nat) (quote : Char) (done : List Char) (cs : List Char) :
    Option (List Char × List Char) :=
  match closing? quote cs with
  | some (quotes, rest) => some (done.reverse ++ quotes, rest)
  | none =>
    match fuel, cs with
    | fuel + 1, '\r' :: '\n' :: rest => multilineTail fuel quote ('\n' :: '\r' :: done) rest
    | fuel + 1, '\n' :: rest => multilineTail fuel quote ('\n' :: done) rest
    | fuel + 1, c :: rest =>
      if c = '\\' ∧ quote = '"' then
        match continuation? rest with
        | some rest => multilineTail fuel quote done rest
        | none =>
          match escaped? rest with
          | some (c, rest) => multilineTail fuel quote (c :: done) rest
          | none => none
      else if isControl c then none
      else multilineTail fuel quote (c :: done) rest
    | _, _ => none

/-- A line end right after the opening quotes is no part of the string. -/
def multiline? (quote : Char) (cs : List Char) : Option (List Char × List Char) :=
  match cs with
  | '\n' :: rest => multilineTail rest.length quote [] rest
  | '\r' :: '\n' :: rest => multilineTail rest.length quote [] rest
  | _ => multilineTail cs.length quote [] cs

def isBareChar (c : Char) : Bool :=
  isDigit c || 'a' ≤ c && c ≤ 'z' || 'A' ≤ c && c ≤ 'Z' || c == '_' || c == '-'

def key? : List Char → Option (String × List Char)
  | '"' :: rest => (basicTail rest.length [] rest).map fun (s, rest) => (String.ofList s, rest)
  | '\'' :: rest => (literalTail rest).map fun (s, rest) => (String.ofList s, rest)
  | cs =>
    let bare := cs.takeWhile isBareChar
    if bare.isEmpty then none else some (String.ofList bare, cs.drop bare.length)

/-- Keys with dots between them, and the text from the first character that is no part of them. -/
def keys? (fuel : Nat) (cs : List Char) : Option (List String × List Char) :=
  match fuel with
  | 0 => none
  | fuel + 1 =>
    match key? (skipBlank cs) with
    | none => none
    | some (key, rest) =>
      match skipBlank rest with
      | '.' :: rest => (keys? fuel rest).map fun (path, rest) => (key :: path, rest)
      | rest => some ([key], rest)

/-- How many keys a path may have, and how deep arrays and inline tables may be nested. -/
def nestingLimit : Nat := 80

def path? (cs : List Char) : Option (List String × List Char) :=
  (keys? cs.length cs).filter (·.1.length ≤ nestingLimit)

mutual

/-- Reads a value that may hold others `depth` levels deep. -/
def value? (fuel depth : Nat) (cs : List Char) : Option (Item × List Char) :=
  match fuel with
  | 0 => none
  | fuel + 1 =>
    match cs with
    | '"' :: '"' :: '"' :: rest =>
      (multiline? '"' rest).map fun (s, rest) => (.string (String.ofList s), rest)
    | '\'' :: '\'' :: '\'' :: rest =>
      (multiline? '\'' rest).map fun (s, rest) => (.string (String.ofList s), rest)
    | '"' :: rest =>
      (basicTail rest.length [] rest).map fun (s, rest) => (.string (String.ofList s), rest)
    | '\'' :: rest => (literalTail rest).map fun (s, rest) => (.string (String.ofList s), rest)
    | '[' :: rest => if depth = 0 then none else items? fuel (depth - 1) [] (gap rest)
    | '{' :: rest => if depth = 0 then none else members? fuel (depth - 1) [] (gap rest)
    | _ =>
      let (word, rest) := takeWord cs
      (scalar? word).map fun x => (x, rest)

/-- Items up to the closing bracket; `done` holds the earlier ones in reverse. -/
def items? (fuel depth : Nat) (done : List Item) (cs : List Char) : Option (Item × List Char) :=
  match fuel, cs with
  | _, ']' :: rest => some (.array done.reverse, rest)
  | 0, _ => none
  | fuel + 1, cs =>
    match value? fuel depth cs with
    | none => none
    | some (x, rest) =>
      match gap rest with
      | ',' :: rest => items? fuel depth (x :: done) (gap rest)
      | ']' :: rest => some (.array (x :: done).reverse, rest)
      | _ => none

/-- Members up to the closing brace. -/
def members? (fuel depth : Nat) (done : Members) (cs : List Char) : Option (Item × List Char) :=
  match fuel, cs with
  | _, '}' :: rest => some (.table .closed done, rest)
  | 0, _ => none
  | fuel + 1, cs =>
    match path? cs with
    | none => none
    | some (path, rest) =>
      match gap rest with
      | '=' :: rest =>
        match value? fuel depth (gap rest) with
        | none => none
        | some (x, rest) =>
          match done.put path x, gap rest with
          | some done, ',' :: rest => members? fuel depth done (gap rest)
          | some done, '}' :: rest => some (.table .closed done, rest)
          | _, _ => none
      | _ => none

end

/-- The lines of a document; `path` leads to the table they belong to. -/
def lines? (fuel : Nat) (done : Members) (path : List String) (cs : List Char) : Option Members :=
  match fuel with
  | 0 => some done
  | fuel + 1 =>
    match skipBlank cs with
    | [] => some done
    | '[' :: '[' :: rest =>
      match path? rest with
      | some (path, ']' :: ']' :: rest) =>
        match done.openElement path, endLine? rest with
        | some done, some rest => lines? fuel done path rest
        | _, _ => none
      | _ => none
    | '[' :: rest =>
      match path? rest with
      | some (path, ']' :: rest) =>
        match done.openTable path, endLine? rest with
        | some done, some rest => lines? fuel done path rest
        | _, _ => none
      | _ => none
    | cs =>
      match endLine? cs with
      | some rest => lines? fuel done path rest
      | none =>
        match path? cs with
        | some (key, '=' :: rest) =>
          match value? (rest.length + 1) nestingLimit (skipBlank rest) with
          | none => none
          | some (x, rest) =>
            match done.within false .header path (fun _ => (·.put key x)), endLine? rest with
            | some done, some rest => lines? fuel done path rest
            | _, _ => none
        | _ => none

/-- The members of a whole document. A byte order mark may come first. -/
def read? (cs : List Char) : Option Members :=
  let cs := match cs with
    | '\uFEFF' :: rest => rest
    | cs => cs
  lines? (cs.length + 1) [] [] cs

end RegionalTables.Toml
