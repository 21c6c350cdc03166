import RegionalTables.Proofs.Cache

/-! Caches in use. However often a cache is set and looked up, each lookup is answered with the entry
last set under its key. A database answers like a cache in memory, but for entries so deep that their
text cannot be read back. -/
namespace RegionalTables

inductive CacheUse where
  | set (key : String) (e : CacheEntry)
  | get (key : String)

namespace CacheUse

/-- The entry last set under a key, where the latest of the past uses stands first. -/
def lastSet (key : String) : List CacheUse → Option CacheEntry
  | [] => none
  | .set k e :: past => if key = k then some e else lastSet key past
  | .get _ :: past => lastSet key past

/-- What the lookups among the uses are to find, in order. -/
def recalled (past : List CacheUse) : List CacheUse → List (Option CacheEntry)
  | [] => []
  | .set key e :: uses => recalled (.set key e :: past) uses
  | .get key :: uses => lastSet key past :: recalled (.get key :: past) uses

/-- What a cache answers to the lookups among the uses, in order. -/
def answers [Cache σ] (cache : σ) : List CacheUse → List (Except CacheError (Option CacheEntry))
  | [] => []
  | .set key e :: uses => answers (Cache.set cache key e) uses
  | .get key :: uses => Cache.get cache key :: answers cache uses

/-- The answer to a lookup, if `kept` answers one that finds an entry. -/
def reply (kept : CacheEntry → Except CacheError (Option CacheEntry)) :
    Option CacheEntry → Except CacheError (Option CacheEntry)
  | none => .ok none
  | some e => kept e

/-- The cache answers every lookup by the past uses. -/
def Recalls [Cache σ] (kept : CacheEntry → Except CacheError (Option CacheEntry)) (cache : σ)
    (past : List CacheUse) : Prop :=
  ∀ key, Cache.get cache key = reply kept (lastSet key past)

section Uses

variable {σ : Type} [Cache σ] {kept : CacheEntry → Except CacheError (Option CacheEntry)} {cache : σ}

theorem Recalls.set {past : List CacheUse} (recalls : Recalls kept cache past)
    (get_set : ∀ (cache : σ) (key : String) (e : CacheEntry) (k : String),
      Cache.get (Cache.set cache key e) k = if k = key then kept e else Cache.get cache k)
    (key : String) (e : CacheEntry) : Recalls kept (Cache.set cache key e) (.set key e :: past) := by
  intro k
  rw [get_set, lastSet, recalls k]
  split <;> rfl

/-- A cache that gives back what was set under a key, and else what was there before, answers all
lookups by the past uses. -/
theorem answers_of_recalls
    (get_set : ∀ (cache : σ) (key : String) (e : CacheEntry) (k : String),
      Cache.get (Cache.set cache key e) k = if k = key then kept e else Cache.get cache k)
    {past : List CacheUse} (recalls : Recalls kept cache past) (uses : List CacheUse) :
    answers cache uses = (recalled past uses).map (reply kept) := by
  induction uses generalizing cache past with
  | nil => rfl
  | cons use uses ih =>
    cases use with
    | set key e => exact ih (recalls.set get_set key e)
    | get key =>
      have rest : Recalls kept cache (.get key :: past) := recalls
      rw [answers, recalled, List.map_cons, recalls key, ih rest]

end Uses

/-- What a database gives for an entry it keeps. -/
def stored (e : CacheEntry) : Except CacheError (Option CacheEntry) :=
  if e.Readable then .ok (some e) else .error .unreadable

theorem answers_memory (uses : List CacheUse) :
    answers MemoryCache.empty uses = (recalled [] uses).map .ok := by
  have get_set (cache : MemoryCache) (key : String) (e : CacheEntry) (k : String) :
      Cache.get (Cache.set cache key e) k = if k = key then .ok (some e) else Cache.get cache k := by
    simp only [Cache.get, Cache.set, SortedMap.find?_insert]
    split <;> rfl
  have nothing : Recalls (fun e => .ok (some e)) MemoryCache.empty [] := fun _ => rfl
  rw [answers_of_recalls get_set nothing]
  apply List.map_congr_left
  rintro (_ | e) _ <;> rfl

theorem answers_database (uses : List CacheUse) :
    answers Database.empty uses = (recalled [] uses).map (reply stored) := by
  refine answers_of_recalls (fun db key e k => ?_) (fun _ => rfl) uses
  simp only [Cache.get, Cache.set, SortedMap.find?_insert]
  by_cases same : k = key
  · rw [if_pos same, if_pos same, stored]
    by_cases readable : e.Readable
    · simp [readable, CacheEntry.read?_text readable]
    · simp [readable, CacheEntry.read?_text_of_deep readable]
  · rw [if_neg same, if_neg same]

theorem mem_of_lastSet {key : String} {past : List CacheUse} {e : CacheEntry}
    (last : lastSet key past = some e) : .set key e ∈ past := by
  induction past with
  | nil => contradiction
  | cons use past ih =>
    cases use with
    | set k f =>
      rw [lastSet] at last
      split at last
      · next same =>
        obtain rfl := Option.some.inj last
        rw [same]
        exact List.mem_cons_self
      · exact List.mem_cons_of_mem _ (ih last)
    | get k => exact List.mem_cons_of_mem _ (ih last)

/-- Only what was set is found. -/
theorem set_mem_of_recalled {past uses : List CacheUse} {e : CacheEntry}
    (found : some e ∈ recalled past uses) : ∃ key, .set key e ∈ past ++ uses := by
  induction uses generalizing past with
  | nil => contradiction
  | cons use uses ih =>
    have later (rest : some e ∈ recalled (use :: past) uses) :
        ∃ key, .set key e ∈ past ++ use :: uses := by
      obtain ⟨key, member⟩ := ih rest
      exact ⟨key, List.perm_middle.mem_iff.2 member⟩
    cases use with
    | set key f => exact later found
    | get key =>
      rcases List.mem_cons.1 found with here | rest
      · exact ⟨key, List.mem_append_left _ (mem_of_lastSet here.symm)⟩
      · exact later rest

/-- A cache in memory answers each lookup with the entry last set under its key, a database as well
unless that entry lies too deep; so they answer alike where no entry does. -/
theorem database_answers_like_memory (uses : List CacheUse) :
    answers MemoryCache.empty uses = (recalled [] uses).map .ok ∧
      answers Database.empty uses = (recalled [] uses).map (reply stored) ∧
      ((∀ key e, .set key e ∈ uses → e.Readable) →
        answers Database.empty uses = answers MemoryCache.empty uses) := by
  refine ⟨answers_memory uses, answers_database uses, fun readable => ?_⟩
  rw [answers_memory, answers_database]
  apply List.map_congr_left
  rintro (_ | e) found
  · rfl
  · obtain ⟨key, member⟩ := set_mem_of_recalled found
    exact if_pos (readable key e member)

end CacheUse

namespace Sample

def rendered : CacheEntry := .concrete {
  content := "region_id,\"BEVSTD\"\n11,3520031\n"
  mimetype := "text/plain"
  cubes := ["12411BJ001"]
  definition := .ofMembers [("layout", .string "long"), ("level", .array [.byte 1, .byte 2])]
  source := some "data=12411:BEVSTD&region=11" }

def unsourced : CacheEntry := .concrete {
  content := ""
  mimetype := "text/plain"
  cubes := []
  definition := .null
  source := none }

def table : CacheEntry := .base {
  data := "eyJyb3dzIjpbXX0="
  cubes := ["12411BJ001", "12411BJ002"]
  definition := .ofMembers [("time", .string "2015")] }

/-- A key is set to entries of both kinds and looked up between. -/
def cacheUses : List CacheUse :=
  [.get "k", .set "k" rendered, .set "l" unsourced, .get "k", .set "k" table, .get "k", .get "l"]

end Sample

theorem CacheUse.database_answers_sample :
    (∀ key e, .set key e ∈ Sample.cacheUses → e.Readable) ∧
      answers Database.empty Sample.cacheUses =
        [.ok none, .ok (some Sample.rendered), .ok (some Sample.table), .ok (some Sample.unsourced)] := by
  have readable : ∀ key e, .set key e ∈ Sample.cacheUses → e.Readable := by
    intro key e member
    simp only [Sample.cacheUses, List.mem_cons, CacheUse.set.injEq, reduceCtorEq, false_or,
      List.not_mem_nil, or_false] at member
    rcases member with ⟨_, rfl⟩ | ⟨_, rfl⟩ | ⟨_, rfl⟩ <;> decide
  obtain ⟨memory, _, alike⟩ := database_answers_like_memory Sample.cacheUses
  exact ⟨readable, (alike readable).trans memory⟩

end RegionalTables
