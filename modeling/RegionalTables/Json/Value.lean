import RegionalTables.Decimal
import RegionalTables.SortedMap

/-! JSON values with their members in order, and the canonical ones among them: numbers a document
can hold, and members under strictly ascending keys at every depth. -/
namespace RegionalTables.Json

inductive Number where
  | integer (n : Int)
  | float (x : Binary64)
  deriving DecidableEq

/-- Integers of 64 bits with or without sign, and finite doubles. -/
def Number.Valid : Number → Prop
  | .integer n => -0x8000000000000000 ≤ n ∧ n < 0x10000000000000000
  | .float x => x.isFinite

def Number.toBinary64 : Number → Binary64
  | .integer n => .ofInt n
  | .float x => x

inductive Value where
  | null
  | bool (b : Bool)
  | number (n : Number)
  | string (s : String)
  | array (items : List Value)
  | object (members : List (String × Value))

instance : Inhabited Value := ⟨.null⟩

namespace Value

def integer (n : Int) : Value := .number (.integer n)

def isNull : Value → Bool
  | .null => true
  | _ => false

def get? (key : String) : Value → Option Value
  | .object members => SortedMap.findEntries key members
  | _ => none

def strings (l : List String) : Value := .array (l.map .string)

mutual

def Canonical : Value → Prop
  | .number n => n.Valid
  | .array items => CanonicalItems items
  | .object members =>
    members.Pairwise (fun a b => compare a.1 b.1 = .lt) ∧ CanonicalMembers members
  | _ => True

def CanonicalItems : List Value → Prop
  | [] => True
  | v :: rest => Canonical v ∧ CanonicalItems rest

def CanonicalMembers : List (String × Value) → Prop
  | [] => True
  | (_, v) :: rest => Canonical v ∧ CanonicalMembers rest

end

theorem canonicalItems_iff {items : List Value} :
    CanonicalItems items ↔ ∀ v ∈ items, Canonical v := by
  induction items with
  | nil => simp [CanonicalItems]
  | cons v rest ih => simp [CanonicalItems, ih]

theorem canonicalMembers_iff {members : List (String × Value)} :
    CanonicalMembers members ↔ ∀ m ∈ members, Canonical m.2 := by
  induction members with
  | nil => simp [CanonicalMembers]
  | cons m rest ih => obtain ⟨k, v⟩ := m; simp [CanonicalMembers, ih]

theorem canonical_object_iff {members : List (String × Value)} :
    Canonical (.object members) ↔
      members.Pairwise (fun a b => compare a.1 b.1 = .lt) ∧ ∀ m ∈ members, Canonical m.2 := by
  simp [Canonical, canonicalMembers_iff]

theorem canonical_array_iff {items : List Value} :
    Canonical (.array items) ↔ ∀ v ∈ items, Canonical v := by
  simp [Canonical, canonicalItems_iff]

end Value

end RegionalTables.Json
