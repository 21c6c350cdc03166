import RegionalTables.Json.Document

/-! Reading trees of an expected shape. A record is an object of its declared fields, each at most
once, whose other members are passed over unread; or an array of its fields in declared order. -/
namespace RegionalTables.Json

/-- The parts of a record, one for each declared field. -/
structure Slots where
  positional : Bool
  parts : List (Option Tree)

namespace Slots

def part (s : Slots) (i : Nat) : Option Tree := (s.parts[i]?).join

def required (s : Slots) (i : Nat) (read : Tree → Option α) : Option α := (s.part i).bind read

/-- A part that stands for `absent` when it is left out. -/
def defaulted (s : Slots) (i : Nat) (absent : α) (read : Tree → Option α) : Option α :=
  match s.part i with
  | none => some absent
  | some t => read t

end Slots

namespace Shape

def string? : Tree → Option String
  | .string s => s
  | _ => none

def nullable? (read : Tree → Option α) : Tree → Option (Option α)
  | .null => some none
  | t => (read t).map some

/-- A part that may be `null`, or left out of an object but not of an array. -/
def optional (s : Slots) (i : Nat) (read : Tree → Option α) : Option (Option α) :=
  match s.part i with
  | none => if s.positional then none else some none
  | some t => nullable? read t

def byte? : Tree → Option Nat
  | .number (some (.integer n)) => if 0 ≤ n ∧ n < 256 then some n.toNat else none
  | _ => none

def list? (read : Nat → Tree → Option α) (depth : Nat) : Tree → Option (List α)
  | .array items =>
    match depth with
    | 0 => none
    | depth + 1 => items.mapM (read depth)
  | _ => none

def strings? : Nat → Tree → Option (List String) := list? fun _ => string?

def member? (read : Tree → Option α) (m : Option String × Tree) : Option (String × α) := do
  return ((← m.1), (← read m.2))

/-- A map by name; the last of a repeated name holds, but all must be readable. -/
def map? (read : Nat → Tree → Option α) (depth : Nat) : Tree → Option (SortedMap String α)
  | .object members =>
    match depth with
    | 0 => none
    | depth + 1 => (members.mapM (member? (read depth))).map SortedMap.ofList
  | _ => none

/-- The member under one of some names, of which there must not be two. -/
def named? (members : List (Option String × Tree)) (names : List String) : Option (Option Tree) :=
  match members.filter fun m => names.any fun name => m.1 == some name with
  | [] => some none
  | [m] => some (some m.2)
  | _ => none

/-- Field `i` goes by any of the names `fields[i]`. -/
def slots? (fields : List (List String)) : Tree → Option Slots
  | .object members =>
    if members.all (·.1.isSome) then (fields.mapM (named? members)).map fun parts => ⟨false, parts⟩
    else none
  | .array items =>
    if items.length ≤ fields.length then
      some ⟨true, (List.range fields.length).map fun i => items[i]?⟩
    else none
  | _ => none

/-- A record at `depth`, read from its slots one level further in. -/
def record? (fields : List (List String)) (read : Nat → Slots → Option α) (depth : Nat) (t : Tree) :
    Option α :=
  match depth with
  | 0 => none
  | depth + 1 => (slots? fields t).bind (read depth)

end Shape

end RegionalTables.Json
