/-! TOML documents as trees. A table remembers how it came about, which decides what may still be
added to it. -/
namespace RegionalTables.Toml

inductive Origin where
  /-- Named on the way to a table below. -/
  | implied
  | header
  | dotted
  /-- Written in one place and complete. -/
  | closed
  deriving DecidableEq

inductive Item where
  | string (s : String)
  | bool (b : Bool)
  /-- A number, which may be too large to be read. -/
  | number (readable : Bool)
  | time
  | array (items : List Item)
  | table (origin : Origin) (members : List (String × Item))
  /-- An array of tables, the last of which is open. -/
  | tables (earlier : List (List (String × Item))) (last : List (String × Item))

instance : Inhabited Item := ⟨.time⟩

abbrev Members := List (String × Item)

mutual

/-- No number in it is too large to be read. -/
def Item.readable : Item → Bool
  | .number readable => readable
  | .array items => readableItems items
  | .table _ members => readableMembers members
  | .tables earlier last => readableTables earlier && readableMembers last
  | _ => true

def readableItems : List Item → Bool
  | [] => true
  | x :: rest => x.readable && readableItems rest

def readableMembers : List (String × Item) → Bool
  | [] => true
  | (_, x) :: rest => x.readable && readableMembers rest

def readableTables : List (List (String × Item)) → Bool
  | [] => true
  | members :: rest => readableMembers members && readableTables rest

end

namespace Members

def get? (key : String) (m : Members) : Option Item := (m.find? (·.1 == key)).map (·.2)

/-- Replaces what is at `key` by what `f` makes of it. -/
def alter (key : String) (f : Option Item → Option Item) : Members → Option Members
  | [] => (f none).map fun x => [(key, x)]
  | (k, x) :: rest =>
    if k = key then (f (some x)).map fun y => (k, y) :: rest
    else (alter key f rest).map ((k, x) :: ·)

/-- Works on the table at a path below one of the given origin, and tells `f` how the table it
reaches came about. The keys of a header may pass through any open table, dotted keys only through
tables without a header of their own; both pass through the last of an array of tables. -/
def within (dotted : Bool) (origin : Origin) (path : List String)
    (f : Origin → Members → Option Members) : Members → Option Members :=
  match path with
  | [] => f origin
  | key :: path => alter key fun
    | none =>
      let origin := if dotted then .dotted else .implied
      (within dotted origin path f []).map (.table origin)
    | some (.table origin members) =>
      if origin = .closed ∨ dotted ∧ origin = .header then none
      else (within dotted origin path f members).map (.table origin)
    | some (.tables earlier last) => (within dotted .header path f last).map (.tables earlier)
    | some _ => none

/-- Works on the member at the end of the path of a header. -/
def atHeader (path : List String) (f : Option Item → Option Item) (m : Members) : Option Members :=
  match path.getLast? with
  | none => none
  | some key => within false .header path.dropLast (fun _ => alter key f) m

/-- A header opens a table that is new or was only implied. -/
def openTable (path : List String) : Members → Option Members :=
  atHeader path fun
    | none => some (.table .header [])
    | some (.table .implied members) => some (.table .header members)
    | some _ => none

def openElement (path : List String) : Members → Option Members :=
  atHeader path fun
    | none => some (.tables [] [])
    | some (.tables earlier last) => some (.tables (earlier ++ [last]) [])
    | some _ => none

def add (key : String) (x : Item) : Members → Option Members :=
  alter key fun
    | none => some x
    | some _ => none

/-- No key is given twice. Dotted keys end in a table that dotted keys have made. -/
def put (path : List String) (x : Item) (m : Members) : Option Members :=
  match path.getLast? with
  | none => none
  | some key =>
    if path.dropLast.isEmpty then m.add key x
    else within true .header path.dropLast
      (fun origin m => if origin = .dotted then m.add key x else none) m

end Members

end RegionalTables.Toml
