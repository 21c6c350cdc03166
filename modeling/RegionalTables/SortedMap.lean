/-! Finite maps held as entry lists in strictly ascending key order. Order is part of the value,
so equal contents are equal terms: `ext_find?` turns agreement of look-ups into an equation. -/
namespace RegionalTables

structure SortedMap (κ : Type u) (α : Type v) [Ord κ] where
  entries : List (κ × α)
  ascending : entries.Pairwise fun a b => compare a.1 b.1 = .lt
  deriving DecidableEq

namespace SortedMap

variable {κ : Type u} {α : Type v} {β : Type w} [Ord κ]

@[ext] theorem ext {m n : SortedMap κ α} (h : m.entries = n.entries) : m = n := by
  cases m; cases n; simp_all

def empty : SortedMap κ α := ⟨[], .nil⟩

instance : EmptyCollection (SortedMap κ α) := ⟨empty⟩
instance : Inhabited (SortedMap κ α) := ⟨empty⟩

/-- Entries listed in ascending order already. -/
def ofAscending (l : List (κ × α))
    (h : (l.map Prod.fst).Pairwise fun a b => compare a b = .lt := by
      simp only [List.map_cons, List.map_nil]; decide) : SortedMap κ α :=
  ⟨l, List.pairwise_map.1 h⟩

def keys (m : SortedMap κ α) : List κ := m.entries.map (·.1)
def values (m : SortedMap κ α) : List α := m.entries.map (·.2)
def size (m : SortedMap κ α) : Nat := m.entries.length
def isEmpty (m : SortedMap κ α) : Bool := m.entries.isEmpty

def findEntries (k : κ) : List (κ × α) → Option α
  | [] => none
  | (a, x) :: rest => if compare k a = .eq then some x else findEntries k rest

def find? (m : SortedMap κ α) (k : κ) : Option α := findEntries k m.entries
def contains (m : SortedMap κ α) (k : κ) : Bool := (m.find? k).isSome

/-- Puts `f` of the value found at `k` there, keeping the entries ascending. -/
def alterEntries (k : κ) (f : Option α → α) : List (κ × α) → List (κ × α)
  | [] => [(k, f none)]
  | (a, x) :: rest =>
    match compare k a with
    | .lt => (k, f none) :: (a, x) :: rest
    | .eq => (a, f (some x)) :: rest
    | .gt => (a, x) :: alterEntries k f rest

/-- Altering adds at most the key itself. -/
theorem mem_alterEntries {k : κ} {f : Option α → α} {l : List (κ × α)} {e : κ × α}
    (h : e ∈ alterEntries k f l) : e.1 = k ∨ ∃ d ∈ l, d.1 = e.1 := by
  induction l with
  | nil => simp_all [alterEntries]
  | cons d rest ih =>
    obtain ⟨a, x⟩ := d
    unfold alterEntries at h
    split at h <;> simp only [List.mem_cons] at h
    · rcases h with rfl | rfl | h
      · exact .inl rfl
      · exact .inr ⟨_, .head _, rfl⟩
      · exact .inr ⟨e, .tail _ h, rfl⟩
    · rcases h with rfl | h
      · exact .inr ⟨_, .head _, rfl⟩
      · exact .inr ⟨e, .tail _ h, rfl⟩
    · rcases h with rfl | h
      · exact .inr ⟨_, .head _, rfl⟩
      · rcases ih h with h | ⟨d, hd, h⟩
        · exact .inl h
        · exact .inr ⟨d, .tail _ hd, h⟩

theorem ascending_alterEntries [Std.TransOrd κ] {k : κ} {f : Option α → α} {l : List (κ × α)}
    (h : l.Pairwise fun a b => compare a.1 b.1 = .lt) :
    (alterEntries k f l).Pairwise fun a b => compare a.1 b.1 = .lt := by
  induction l with
  | nil => simp [alterEntries]
  | cons d rest ih =>
    obtain ⟨a, x⟩ := d
    obtain ⟨first, others⟩ := List.pairwise_cons.1 h
    unfold alterEntries
    split
    case h_1 before =>
      refine List.pairwise_cons.2 ⟨fun e he => ?_, h⟩
      rcases List.mem_cons.1 he with rfl | he
      · exact before
      · exact Std.TransCmp.lt_trans before (first e he)
    case h_2 => exact List.pairwise_cons.2 ⟨first, others⟩
    case h_3 after =>
      refine List.pairwise_cons.2 ⟨fun e he => ?_, ih others⟩
      rcases mem_alterEntries he with he | ⟨d, hd, he⟩
      · rw [he]; exact Std.OrientedCmp.gt_iff_lt.1 after
      · rw [← he]; exact first d hd

def alter [Std.TransOrd κ] (m : SortedMap κ α) (k : κ) (f : Option α → α) : SortedMap κ α :=
  ⟨alterEntries k f m.entries, ascending_alterEntries m.ascending⟩

def insert [Std.TransOrd κ] (m : SortedMap κ α) (k : κ) (x : α) : SortedMap κ α :=
  m.alter k fun _ => x

/-- A later entry replaces an earlier one of the same key. -/
def ofList [Std.TransOrd κ] (l : List (κ × α)) : SortedMap κ α :=
  l.foldl (fun m e => m.insert e.1 e.2) empty

/-- The entries for which `f` gives a value, under their keys. -/
def filterMap (m : SortedMap κ α) (f : κ → α → Option β) : SortedMap κ β where
  entries := m.entries.filterMap fun e => (f e.1 e.2).map (e.1, ·)
  ascending := by
    refine List.Pairwise.filterMap _ (fun a b h c hc d hd => ?_) m.ascending
    simp only [Option.map_eq_some_iff] at hc hd
    obtain ⟨_, _, rfl⟩ := hc
    obtain ⟨_, _, rfl⟩ := hd
    exact h

def map (m : SortedMap κ α) (f : κ → α → β) : SortedMap κ β where
  entries := m.entries.map fun e => (e.1, f e.1 e.2)
  ascending := by simpa [List.pairwise_map] using m.ascending

def erase (m : SortedMap κ α) (k : κ) : SortedMap κ α where
  entries := m.entries.filter fun e => compare k e.1 != .eq
  ascending := m.ascending.filter _

@[simp] theorem findEntries_nil (k : κ) : findEntries k ([] : List (κ × α)) = none := rfl

@[simp] theorem find?_empty (k : κ) : (empty : SortedMap κ α).find? k = none := rfl

theorem findEntries_eq_none [Std.TransOrd κ] {k : κ} {l : List (κ × α)}
    (h : ∀ e ∈ l, compare k e.1 = .lt) : findEntries k l = none := by
  induction l with
  | nil => rfl
  | cons e rest ih =>
    have : compare k e.1 = .lt := h e (.head _)
    simp [findEntries, this, ih fun d hd => h d (.tail _ hd)]

theorem mem_of_findEntries [Std.LawfulEqOrd κ] {k : κ} {x : α} {l : List (κ × α)}
    (h : findEntries k l = some x) : (k, x) ∈ l := by
  induction l with
  | nil => simp at h
  | cons e rest ih =>
    obtain ⟨a, y⟩ := e
    unfold findEntries at h
    split at h
    case isTrue same =>
      have : k = a := Std.LawfulEqCmp.compare_eq_iff_eq.1 same
      simp_all
    case isFalse => exact .tail _ (ih h)

theorem findEntries_of_mem [Std.TransOrd κ] {k : κ} {x : α} {l : List (κ × α)}
    (order : l.Pairwise fun a b => compare a.1 b.1 = .lt) (h : (k, x) ∈ l) :
    findEntries k l = some x := by
  induction l with
  | nil => simp at h
  | cons e rest ih =>
    obtain ⟨a, y⟩ := e
    obtain ⟨first, others⟩ := List.pairwise_cons.1 order
    rcases List.mem_cons.1 h with h | h
    · cases h; simp [findEntries]
    · have : compare a k = .lt := first (k, x) h
      have : compare k a = .gt := Std.OrientedCmp.gt_iff_lt.2 this
      simp [findEntries, this, ih others h]

theorem find?_eq_some_iff [Std.TransOrd κ] [Std.LawfulEqOrd κ] {m : SortedMap κ α} {k : κ} {x : α} :
    m.find? k = some x ↔ (k, x) ∈ m.entries :=
  ⟨mem_of_findEntries, findEntries_of_mem m.ascending⟩

theorem findEntries_alterEntries_self [Std.TransOrd κ] {k : κ} {f : Option α → α}
    {l : List (κ × α)} (order : l.Pairwise fun a b => compare a.1 b.1 = .lt) :
    findEntries k (alterEntries k f l) = some (f (findEntries k l)) := by
  induction l with
  | nil => simp [alterEntries, findEntries]
  | cons e rest ih =>
    obtain ⟨a, x⟩ := e
    obtain ⟨first, others⟩ := List.pairwise_cons.1 order
    unfold alterEntries
    split
    case h_1 before =>
      have : findEntries k rest = none :=
        findEntries_eq_none fun d hd => Std.TransCmp.lt_trans before (first d hd)
      simp [findEntries, before, this]
    case h_2 same => simp [findEntries, same]
    case h_3 after => simp [findEntries, after, ih others]

theorem findEntries_alterEntries_other [Std.TransOrd κ] {k j : κ} {f : Option α → α}
    {l : List (κ × α)} (h : compare j k ≠ .eq) :
    findEntries j (alterEntries k f l) = findEntries j l := by
  induction l with
  | nil => simp [alterEntries, findEntries, h]
  | cons e rest ih =>
    obtain ⟨a, x⟩ := e
    unfold alterEntries
    split
    case h_1 => simp [findEntries, h]
    case h_2 same =>
      have : compare j a ≠ .eq := fun bad =>
        h (Std.TransCmp.eq_trans bad (Std.OrientedCmp.eq_symm same))
      simp [findEntries, this]
    case h_3 => simp [findEntries, ih]

theorem find?_alter_self [Std.TransOrd κ] (m : SortedMap κ α) (k : κ) (f : Option α → α) :
    (m.alter k f).find? k = some (f (m.find? k)) :=
  findEntries_alterEntries_self m.ascending

theorem find?_alter_other [Std.TransOrd κ] [Std.LawfulEqOrd κ] (m : SortedMap κ α) {k j : κ}
    (f : Option α → α) (h : j ≠ k) : (m.alter k f).find? j = m.find? j :=
  findEntries_alterEntries_other fun bad => h (Std.LawfulEqCmp.compare_eq_iff_eq.1 bad)

theorem find?_alter [Std.TransOrd κ] [Std.LawfulEqOrd κ] [DecidableEq κ] (m : SortedMap κ α)
    (k j : κ) (f : Option α → α) :
    (m.alter k f).find? j = if j = k then some (f (m.find? k)) else m.find? j := by
  split
  case isTrue h => rw [h, find?_alter_self]
  case isFalse h => exact find?_alter_other m f h

theorem find?_insert [Std.TransOrd κ] [Std.LawfulEqOrd κ] [DecidableEq κ] (m : SortedMap κ α)
    (k j : κ) (x : α) : (m.insert k x).find? j = if j = k then some x else m.find? j :=
  find?_alter m k j _

theorem eq_of_findEntries [Std.TransOrd κ] [Std.LawfulEqOrd κ] {l r : List (κ × α)}
    (hl : l.Pairwise fun a b => compare a.1 b.1 = .lt)
    (hr : r.Pairwise fun a b => compare a.1 b.1 = .lt)
    (h : ∀ k, findEntries k l = findEntries k r) : l = r := by
  induction l generalizing r with
  | nil =>
    cases r with
    | nil => rfl
    | cons e rest => have := h e.1; simp [findEntries] at this
  | cons d left ih =>
    cases r with
    | nil => have := h d.1; simp [findEntries] at this
    | cons e right =>
      obtain ⟨a, x⟩ := d
      obtain ⟨b, y⟩ := e
      obtain ⟨firstl, hl'⟩ := List.pairwise_cons.1 hl
      obtain ⟨firstr, hr'⟩ := List.pairwise_cons.1 hr
      have ma : (a, x) ∈ (b, y) :: right := mem_of_findEntries (by
        rw [← h a]; simp [findEntries])
      have mb : (b, y) ∈ (a, x) :: left := mem_of_findEntries (by
        rw [h b]; simp [findEntries])
      have same : (a, x) = (b, y) := by
        rcases List.mem_cons.1 ma with e | ma
        · exact e
        · rcases List.mem_cons.1 mb with e | mb
          · exact e.symm
          · have one : compare a b = .lt := firstl _ mb
            have two : compare b a = .lt := firstr _ ma
            have := Std.TransCmp.lt_trans one two
            simp at this
      cases same
      refine congrArg _ (ih hl' hr' fun k => ?_)
      have hk := h k
      unfold findEntries at hk
      by_cases same : compare k a = .eq
      · have : k = a := Std.LawfulEqCmp.compare_eq_iff_eq.1 same
        subst this
        rw [findEntries_eq_none firstl, findEntries_eq_none firstr]
      · simpa [same] using hk

/-- Maps that answer every look-up alike are equal. -/
theorem ext_find? [Std.TransOrd κ] [Std.LawfulEqOrd κ] {m n : SortedMap κ α}
    (h : ∀ k, m.find? k = n.find? k) : m = n :=
  ext (eq_of_findEntries m.ascending n.ascending h)

end SortedMap

end RegionalTables
