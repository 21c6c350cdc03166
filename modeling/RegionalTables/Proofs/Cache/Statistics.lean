import Mathlib.Data.List.Basic
import Mathlib.Data.List.TakeWhile
import RegionalTables.Proofs.Cache
import RegionalTables.Proofs.Json.OneLine

/-! What a database tells of itself after any changes. For each key it holds the entry of the last
change about that key, if the change set one, and its statistics count these entries by kind. The size
they give is the number of characters in all texts, which is that of bytes only where all are ASCII. -/
namespace RegionalTables

open Json

inductive CacheChange where
  | set (key : String) (e : CacheEntry)
  | delete (key : String)
  | clear

namespace CacheChange

/-- Clearing is about every key. -/
def concerns (key : String) : CacheChange → Bool
  | .set k _ | .delete k => k == key
  | .clear => true

def applyTo (db : Database) : CacheChange → Database
  | .set key e => Cache.set db key e
  | .delete key => (db.delete key).2
  | .clear => db.clear.2

/-- What a change about a key leaves under it. -/
def left? : CacheChange → Option CacheEntry
  | .set _ e => some e
  | .delete _ | .clear => none

/-- The last of the changes about a key. -/
def last? (changes : List CacheChange) (key : String) : Option CacheChange :=
  (changes.filter (·.concerns key)).getLast?

/-- The entries that changes leave to a new database, each with its key. -/
structure Leave (changes : List CacheChange) (live : List (String × CacheEntry)) : Prop where
  nodup_keys : (live.map (·.1)).Nodup
  mem_iff (key : String) (e : CacheEntry) : (key, e) ∈ live ↔ last? changes key = some (.set key e)

end CacheChange

def CacheEntry.row (e : CacheEntry) : Row := ⟨e.kind, e.text⟩

/-- A new database to which changes are made. -/
def Database.after (changes : List CacheChange) : Database :=
  changes.foldl CacheChange.applyTo .empty

/-! What lies under a key. -/

namespace CacheChange

theorem find?_applyTo (db : Database) (c : CacheChange) (key : String) :
    (c.applyTo db).rows.find? key =
      if c.concerns key then c.left?.map CacheEntry.row else db.rows.find? key := by
  cases c with
  | set k e =>
    change (db.rows.insert k e.row).find? key = _
    simp [SortedMap.find?_insert, concerns, left?, @eq_comm _ k]
  | delete k =>
    change (db.rows.erase k).find? key = _
    simp [SortedMap.find?_erase, concerns, left?, @eq_comm _ k]
  | clear => rfl

theorem find?_foldl (changes : List CacheChange) (db : Database) (key : String) :
    (changes.foldl applyTo db).rows.find? key =
      match last? changes key with
      | some c => c.left?.map CacheEntry.row
      | none => db.rows.find? key := by
  induction changes generalizing db with
  | nil => rfl
  | cons c changes ih =>
    rw [List.foldl_cons, ih, find?_applyTo, last?, last?, List.filter_cons]
    by_cases about : c.concerns key
    -- the change counts unless a later one is about the key as well
    · rw [if_pos about, if_pos about, List.getLast?_cons]
      cases (changes.filter (·.concerns key)).getLast? <;> rfl
    · rw [if_neg about, if_neg about]

theorem key_of_last? {changes : List CacheChange} {key k : String} {e : CacheEntry}
    (last : last? changes key = some (.set k e)) : k = key := by
  have member := List.mem_of_getLast? last
  simpa [concerns] using (List.mem_filter.1 member).2

end CacheChange

namespace Database

open CacheChange

/-- A row is found where the last change set an entry, and is made from that entry. -/
theorem find?_after (changes : List CacheChange) (key : String) (row : Row) :
    (after changes).rows.find? key = some row ↔
      ∃ e, last? changes key = some (.set key e) ∧ e.row = row := by
  rw [after, find?_foldl]
  cases last : last? changes key with
  | none => simp [empty]
  | some c =>
    cases c with
    | set k e =>
      obtain rfl := key_of_last? last
      simp [left?]
    | delete k => simp [left?]
    | clear => simp [left?]

/-- The rows are made from the entries that the changes leave, one for each key. -/
theorem exists_leave (changes : List CacheChange) : ∃ live, Leave changes live ∧
    (after changes).rows.entries = live.map fun l => (l.1, l.2.row) := by
  let rows := (after changes).rows
  let live := rows.entries.filterMap fun r => ((last? changes r.1).bind left?).map (r.1, ·)
  have stands : ∀ r ∈ rows.entries, ∃ e, last? changes r.1 = some (.set r.1 e) ∧ e.row = r.2 :=
    fun r member => (find?_after changes r.1 r.2).1 (SortedMap.find?_eq_some_iff.2 member)
  have made : rows.entries = live.map fun l => (l.1, l.2.row) := by
    have each : ∀ r ∈ rows.entries, (((last? changes r.1).bind left?).map (r.1, ·)).map
        (fun l => (l.1, l.2.row)) = some r := by
      intro r member
      obtain ⟨e, last, row⟩ := stands r member
      simp [last, left?, row]
    rw [List.map_filterMap, List.filterMap_congr each, List.filterMap_some]
  refine ⟨live, ⟨?_, fun key e => ?_⟩, made⟩
  · have keys : live.map (·.1) = rows.keys := by simp [SortedMap.keys, made]
    rw [keys]
    exact rows.nodup_keys
  · constructor
    · intro member
      obtain ⟨r, own, kept⟩ := List.mem_filterMap.1 member
      obtain ⟨e', last, _⟩ := stands r own
      simp only [last, Option.bind_some, left?, Option.map_some, Option.some.injEq,
        Prod.mk.injEq] at kept
      obtain ⟨rfl, rfl⟩ := kept
      exact last
    · intro last
      have found := (find?_after changes key e.row).2 ⟨e, last, rfl⟩
      exact List.mem_filterMap.2 ⟨(key, e.row), SortedMap.find?_eq_some_iff.1 found,
        by simp [last, left?]⟩

end Database

/-! Characters and bytes. -/

/-- What all members of a list come to. -/
def total (f : α → Nat) (l : List α) : Nat := (l.map f).foldr (· + ·) 0

theorem total_cons (f : α → Nat) (a : α) (l : List α) : total f (a :: l) = f a + total f l := rfl

theorem total_le_of_le {l : List α} {f g : α → Nat} (below : ∀ a ∈ l, f a ≤ g a) :
    total f l ≤ total g l := by
  induction l with
  | nil => exact Nat.le_refl _
  | cons a l ih =>
    obtain ⟨first, rest⟩ := List.forall_mem_cons.1 below
    exact Nat.add_le_add first (ih rest)

/-- If no member adds less, no member may add more. -/
theorem total_eq_iff_of_le {l : List α} {f g : α → Nat} (below : ∀ a ∈ l, f a ≤ g a) :
    total f l = total g l ↔ ∀ a ∈ l, f a = g a := by
  induction l with
  | nil => simp [total]
  | cons a l ih =>
    obtain ⟨first, rest⟩ := List.forall_mem_cons.1 below
    have others := total_le_of_le rest
    rw [List.forall_mem_cons, ← ih rest, total_cons, total_cons]
    omega

theorem length_eq_total (s : String) : s.length = total (fun _ => 1) s.toList := by
  rw [← String.length_toList]
  induction s.toList with
  | nil => rfl
  | cons c cs ih => rw [List.length_cons, ih, total_cons, Nat.add_comm]

theorem utf8ByteSize_eq_total (s : String) : s.utf8ByteSize = total Char.utf8Size s.toList := by
  obtain ⟨cs, rfl⟩ : ∃ cs, s = String.ofList cs := ⟨s.toList, String.ofList_toList.symm⟩
  rw [← String.size_toByteArray, String.toByteArray_ofList, List.utf8Encode, String.toList_ofList,
    List.size_toByteArray]
  induction cs with
  | nil => rfl
  | cons c cs ih =>
    rw [List.flatMap_cons, List.length_append, ih, String.length_utf8EncodeChar, total_cons]

theorem length_le_utf8ByteSize (s : String) : s.length ≤ s.utf8ByteSize := by
  rw [utf8ByteSize_eq_total, length_eq_total]
  exact total_le_of_le fun c _ => c.utf8Size_pos

/-- A text has as many bytes as characters only if it is ASCII. -/
theorem length_eq_utf8ByteSize_iff (s : String) :
    s.length = s.utf8ByteSize ↔ ∀ c ∈ s.toList, c.toNat < 0x80 := by
  have one (c : Char) : 1 = c.utf8Size ↔ c.toNat < 0x80 := by
    rw [eq_comm, Char.utf8Size_eq_one_iff, UInt32.le_iff_toNat_le]
    exact Nat.lt_succ_iff.symm
  rw [utf8ByteSize_eq_total, length_eq_total, total_eq_iff_of_le fun c _ => c.utf8Size_pos]
  exact forall₂_congr fun c _ => one c

/-- A written entry has no NUL, so that all its characters count. -/
theorem CacheEntry.length_row (e : CacheEntry) : e.row.length = e.text.length := by
  have plain : Uncontrolled e.text.toList := by
    rw [text, Value.text, String.toList_ofList]
    exact Value.uncontrolled_chars e.writable_toValue
  have kept : ∀ c ∈ e.text.toList, (c != '\x00') = true := by
    intro c member
    rw [bne_iff_ne]
    rintro rfl
    exact plain.not_mem (by decide) member
  change (e.text.toList.takeWhile (· != '\x00')).length = e.text.length
  rw [List.takeWhile_eq_self_iff.2 kept, String.length_toList]

namespace Database

open CacheChange

theorem statistics_of_entries {db : Database} {live : List (String × CacheEntry)}
    (made : db.rows.entries = live.map fun l => (l.1, l.2.row)) :
    db.statistics = {
      concrete := live.countP (·.2.kind == .concrete)
      base := live.countP (·.2.kind == .base)
      size := total (·.2.text.length) live } := by
  have values : db.rows.values = live.map (·.2.row) := by simp [SortedMap.values, made]
  have count (kind : EntryKind) : db.count kind = live.countP (·.2.kind == kind) := by
    rw [Database.count, values, List.countP_map]
    rfl
  have size : (db.rows.values.map Row.length).foldr (· + ·) 0 = total (·.2.text.length) live := by
    simp [values, total, Function.comp_def, CacheEntry.length_row]
  rw [statistics, count, count, size]

/-- After any changes the statistics count the entries left by kind, and give the number of
characters in all their texts. That is the number of bytes only if no text has other than ASCII
characters. A key is deleted if and only if it has an entry, and clearing tells how many there are. -/
theorem statistics_after (changes : List CacheChange) : ∃ live, Leave changes live ∧
    (after changes).statistics = {
      concrete := live.countP (·.2.kind == .concrete)
      base := live.countP (·.2.kind == .base)
      size := total (·.2.text.length) live } ∧
    ((after changes).statistics.size = total (·.2.text.utf8ByteSize) live ↔
      ∀ l ∈ live, ∀ c ∈ l.2.text.toList, c.toNat < 0x80) ∧
    (∀ key, ((after changes).delete key).1 = true ↔ ∃ e, (key, e) ∈ live) ∧
    (after changes).clear.1 = live.length := by
  obtain ⟨live, leave, made⟩ := exists_leave changes
  have statistics := statistics_of_entries made
  refine ⟨live, leave, statistics, ?_, fun key => ?_, ?_⟩
  · rw [statistics, total_eq_iff_of_le fun l _ => length_le_utf8ByteSize l.2.text]
    exact forall₂_congr fun l _ => length_eq_utf8ByteSize_iff l.2.text
  · have found := find?_after changes key
    change ((after changes).rows.find? key).isSome = true ↔ _
    simp only [Option.isSome_iff_exists, found, leave.mem_iff]
    constructor
    · rintro ⟨_, e, last, _⟩
      exact ⟨e, last⟩
    · rintro ⟨e, last⟩
      exact ⟨e.row, e, last, rfl⟩
  · change (after changes).rows.entries.length = live.length
    rw [made, List.length_map]

end Database

namespace Sample

/-- A rendering with a letter of two bytes. -/
def umlaut : CacheEntry := .concrete {
  content := "ä"
  mimetype := "text/csv"
  cubes := []
  definition := .null
  source := none }

end Sample

/-- The letter counts once, so the size is less than that in bytes. -/
theorem Database.size_lt_bytes :
    (Database.after [.set "a" Sample.umlaut]).statistics.size = 84 ∧
      Sample.umlaut.text.utf8ByteSize = 85 := by
  decide +kernel

end RegionalTables
