import RegionalTables.Proofs.Query.Identity
import RegionalTables.Proofs.Service.Transparency

/-! The outcome of a request is decided by the requests before it. The cache holds exactly what the
queries answered so far have kept: a finished answer for each of them and its base table, and
nothing else. So their definitions tell where the next answer comes from. -/
namespace RegionalTables

/-- A cache with the queries that were answered so far. -/
structure Progress (σ : Type) where
  cache : σ
  past : List Query

namespace Service

/-! Requests one after another. -/

def step [Cache σ] (s : Service) (p : Progress σ) (request : Request) : Progress σ :=
  match s.serve request p.cache with
  | (.ok _, cache) => ⟨cache, (s.asked? request).toList ++ p.past⟩
  | (.error _, cache) => ⟨cache, p.past⟩

def progress [Cache σ] (s : Service) (start : σ) (requests : List Request) : Progress σ :=
  requests.foldl s.step ⟨start, []⟩

/-- What an outcome tells about the queries answered before. -/
structure Tells (past : List Query) (q : Query) (outcome : Outcome) : Prop where
  hit : outcome = .hit ↔ ∃ p ∈ past, p.definition = q.definition
  base : outcome = .base ↔ (¬ ∃ p ∈ past, p.definition = q.definition) ∧
    ∃ p ∈ past, p.dataDefinition = q.dataDefinition
  miss : outcome = .miss ↔ (¬ ∃ p ∈ past, p.definition = q.definition) ∧
    ¬ ∃ p ∈ past, p.dataDefinition = q.dataDefinition

/-! Keys. -/

/-- No key of an asked query stands for anything else. -/
structure KeysSeparate (asked : Query → Prop) : Prop extends KeysTell asked where
  apart {q r : Query} : asked q → asked r → q.renderKey ≠ r.dataKey

theorem KeysTell.mono {asked asked' : Query → Prop} (tell : KeysTell asked)
    (fewer : ∀ q, asked' q → asked q) : KeysTell asked' where
  render left right := tell.render (fewer _ left) (fewer _ right)
  data left right := tell.data (fewer _ left) (fewer _ right)

theorem KeysTell.definition {asked : Query → Prop} (tell : KeysTell asked) {q r : Query}
    (left : asked q) (right : asked r) (same : q.renderKey = r.renderKey) :
    q.definition = r.definition := by
  rw [← tell.render left right same]
  rfl

theorem KeysTell.dataDefinition {asked : Query → Prop} (tell : KeysTell asked) {q r : Query}
    (left : asked q) (right : asked r) (same : q.dataKey = r.dataKey) :
    q.dataDefinition = r.dataDefinition := by
  rw [← tell.data left right same]
  rfl

/-! Entries. -/

variable {σ : Type} [Cache σ] {s : Service} {asked : Query → Prop} {q : Query} {cache : σ}
  {key k : String} {e : CacheEntry} {kind : EntryKind}

/-- An entry of the kind is found under the key. -/
def Holds (cache : σ) (key : String) (kind : EntryKind) : Prop :=
  ∃ e, Cache.get cache key = .ok (some e) ∧ e.kind = kind

theorem holds_set_self [LawfulCache σ] (readable : e.Readable) (cache : σ) :
    Holds (Cache.set cache key e) key e.kind :=
  ⟨e, by rw [LawfulCache.get_set cache key readable, if_pos rfl], rfl⟩

theorem Holds.set [LawfulCache σ] (holds : Holds cache k kind) (readable : e.Readable)
    (same : k = key → e.kind = kind) : Holds (Cache.set cache key e) k kind := by
  by_cases own : k = key
  · subst own
    rw [← same rfl]
    exact holds_set_self readable cache
  · obtain ⟨e', found, right⟩ := holds
    exact ⟨e', by rw [LawfulCache.get_set cache key readable, if_neg own, found], right⟩

theorem Holds.concrete (holds : Holds cache key .concrete) :
    ∃ e, Cache.get cache key = .ok (some (.concrete e)) := by
  obtain ⟨e, found, kind⟩ := holds
  cases e with
  | concrete e => exact ⟨e, found⟩
  | base e => contradiction

theorem Holds.base (holds : Holds cache key .base) :
    ∃ e, Cache.get cache key = .ok (some (.base e)) := by
  obtain ⟨e, found, kind⟩ := holds
  cases e with
  | concrete e => contradiction
  | base e => exact ⟨e, found⟩

theorem Unfinished.not_holds (unfinished : Unfinished cache q) :
    ¬ Holds cache q.renderKey .concrete := by
  intro holds
  obtain ⟨e, found⟩ := holds.concrete
  obtain ⟨e?, got, other⟩ := unfinished
  exact other e (Except.ok.inj (got.symm.trans found))

theorem Unmade.not_holds (unmade : Unmade cache q) : ¬ Holds cache q.dataKey .base := by
  intro holds
  obtain ⟨e, found⟩ := holds.base
  obtain ⟨e?, got, other⟩ := unmade
  exact other e (Except.ok.inj (got.symm.trans found))

theorem Kept.mono {asked' : Query → Prop} (kept : s.Kept asked key e)
    (more : ∀ q, asked q → asked' q) : s.Kept asked' key e := by
  cases kept with
  | answer origin made place => exact .answer (more _ origin) made place
  | table origin made place => exact .table (more _ origin) made place

theorem Found.mono {asked' : Query → Prop} (found : s.Found asked cache key)
    (more : ∀ q, asked q → asked' q) : s.Found asked' cache key := by
  obtain ⟨e?, got, kept⟩ := found
  exact ⟨e?, got, fun e own => (kept e own).mono more⟩

theorem Found.set [LawfulCache σ] (found : ∀ k, s.Found asked cache k) (kept : s.Kept asked key e)
    (k : String) : s.Found asked (Cache.set cache key e) k := by
  have get := LawfulCache.get_set cache key kept.readable k
  by_cases own : k = key
  · subst own
    rw [if_pos rfl] at get
    refine ⟨some e, get, ?_⟩
    rintro _ ⟨⟩
    exact kept
  · rw [if_neg own] at get
    obtain ⟨e?, got, each⟩ := found k
    exact ⟨e?, get.trans got, each⟩

theorem Found.keep [LawfulCache σ] {entries : List (String × CacheEntry)}
    (found : ∀ k, s.Found asked cache k) (kept : ∀ e ∈ entries, s.Kept asked e.1 e.2) (k : String) :
    s.Found asked (keep cache entries) k := by
  induction entries generalizing cache with
  | nil => exact found k
  | cons e entries ih =>
    obtain ⟨first, rest⟩ := List.forall_mem_cons.1 kept
    exact ih (Found.set found first) rest

theorem Holds.keep [LawfulCache σ] {entries : List (String × CacheEntry)}
    (holds : Holds cache key kind)
    (same : ∀ e ∈ entries, e.2.Readable ∧ (key = e.1 → e.2.kind = kind)) :
    Holds (keep cache entries) key kind := by
  induction entries generalizing cache with
  | nil => exact holds
  | cons e entries ih =>
    obtain ⟨first, rest⟩ := List.forall_mem_cons.1 same
    exact ih (holds.set first.1 first.2) rest

/-- Under a render key only finished answers are kept. -/
theorem Kept.kind_of_renderKey (kept : s.Kept asked key e) (keys : KeysSeparate asked)
    (own : asked q) (place : q.renderKey = key) : e.kind = .concrete := by
  cases kept with
  | answer _ _ _ => rfl
  | table origin _ other => exact absurd (place.trans other) (keys.apart own origin)

/-- Under a data key only base tables are kept. -/
theorem Kept.kind_of_dataKey (kept : s.Kept asked key e) (keys : KeysSeparate asked)
    (own : asked q) (place : q.dataKey = key) : e.kind = .base := by
  cases kept with
  | answer origin _ other => exact absurd (place.trans other).symm (keys.apart origin own)
  | table _ _ _ => rfl

/-! What the cache holds. -/

/-- The cache holds a finished answer and a base table of each query answered so far, and all that it
holds has been kept for one of them. -/
structure History (s : Service) (asked : Query → Prop) (past : List Query) (cache : σ) : Prop where
  known : ∀ q ∈ past, asked q
  found : ∀ key, s.Found (· ∈ past) cache key
  render : ∀ q ∈ past, Holds cache q.renderKey .concrete
  data : ∀ q ∈ past, Holds cache q.dataKey .base

variable {past : List Query}

theorem History.known_cons (history : s.History asked past cache) (own : asked q) :
    ∀ p ∈ q :: past, asked p :=
  List.forall_mem_cons.2 ⟨own, history.known⟩

theorem History.found_cons (history : s.History asked past cache) (q : Query) (key : String) :
    s.Found (· ∈ q :: past) cache key :=
  (history.found key).mono fun _ member => List.mem_cons_of_mem q member

theorem history_of_empty (empty : ∀ key, Cache.get cache key = .ok none) :
    s.History asked [] cache where
  known q member := by contradiction
  found key := ⟨none, empty key, fun e found => by contradiction⟩
  render q member := by contradiction
  data q member := by contradiction

/-- A finished answer is found exactly for the definitions answered before. -/
theorem History.render_iff (history : s.History asked past cache) (keys : KeysSeparate asked)
    (own : asked q) :
    Holds cache q.renderKey .concrete ↔ ∃ p ∈ past, p.definition = q.definition := by
  constructor
  · intro holds
    obtain ⟨e, found⟩ := holds.concrete
    obtain ⟨_, got, kept⟩ := history.found q.renderKey
    obtain rfl := Except.ok.inj (got.symm.trans found)
    generalize whole : CacheEntry.concrete e = entry at kept
    cases kept entry rfl with
    | @answer p _ origin _ place =>
      exact ⟨p, origin, keys.definition (history.known p origin) own place.symm⟩
    | table _ _ _ => contradiction
  · rintro ⟨p, member, same⟩
    have key : p.renderKey = q.renderKey := congrArg Query.keyOf same
    exact key ▸ history.render p member

/-- A base table is found exactly for the data definitions answered before. -/
theorem History.data_iff (history : s.History asked past cache) (keys : KeysSeparate asked)
    (own : asked q) :
    Holds cache q.dataKey .base ↔ ∃ p ∈ past, p.dataDefinition = q.dataDefinition := by
  constructor
  · intro holds
    obtain ⟨e, found⟩ := holds.base
    obtain ⟨_, got, kept⟩ := history.found q.dataKey
    obtain rfl := Except.ok.inj (got.symm.trans found)
    generalize whole : CacheEntry.base e = entry at kept
    cases kept entry rfl with
    | answer _ _ _ => contradiction
    | @table p _ origin _ place =>
      exact ⟨p, origin, keys.dataDefinition (history.known p origin) own place.symm⟩
  · rintro ⟨p, member, same⟩
    have key : p.dataKey = q.dataKey := congrArg Query.keyOf same
    exact key ▸ history.data p member

/-- What is kept for one more query takes nothing away. -/
theorem History.keep [LawfulCache σ] (history : s.History asked past cache)
    (keys : KeysSeparate asked) (own : asked q) {entries : List (String × CacheEntry)}
    (kept : ∀ e ∈ entries, s.Kept (· ∈ q :: past) e.1 e.2)
    (render : Holds (keep cache entries) q.renderKey .concrete)
    (data : Holds (keep cache entries) q.dataKey .base) :
    s.History asked (q :: past) (keep cache entries) := by
  have known := history.known_cons own
  constructor
  case known => exact known
  case found => exact Found.keep (history.found_cons q) kept
  case render =>
    refine List.forall_mem_cons.2 ⟨render, fun p member => (history.render p member).keep ?_⟩
    intro e listed
    exact ⟨(kept e listed).readable,
      ((kept e listed).mono known).kind_of_renderKey keys (history.known p member)⟩
  case data =>
    refine List.forall_mem_cons.2 ⟨data, fun p member => (history.data p member).keep ?_⟩
    intro e listed
    exact ⟨(kept e listed).readable,
      ((kept e listed).mono known).kind_of_dataKey keys (history.known p member)⟩

theorem tells_hit (same : ∃ p ∈ past, p.definition = q.definition) :
    Tells past q .hit := by
  constructor <;> simp [same]

theorem tells_base (other : ¬ ∃ p ∈ past, p.definition = q.definition)
    (same : ∃ p ∈ past, p.dataDefinition = q.dataDefinition) : Tells past q .base := by
  constructor <;> simp only [other, same] <;> simp

theorem tells_miss (other : ¬ ∃ p ∈ past, p.definition = q.definition)
    (new : ¬ ∃ p ∈ past, p.dataDefinition = q.dataDefinition) : Tells past q .miss := by
  constructor <;> simp only [other, new] <;> simp

/-- An answer comes from where the history says, and makes its query part of it. -/
theorem History.answered [LawfulCache σ] (history : s.History asked past cache)
    (keys : KeysSeparate asked) (own : asked q) {a : Answer} (given : s.answer q cache = .ok a) :
    Tells past q a.response.outcome ∧
      s.History asked (q :: past) (Service.keep cache a.entries) := by
  have tell : KeysTell (· ∈ q :: past) := keys.toKeysTell.mono (history.known_cons own)
  have rendered := history.render_iff keys own
  have made := history.data_iff keys own
  have ways := s.answered q cache
  rw [given] at ways
  generalize whole : Except.ok a = result at ways
  cases ways with
  | @hit e found =>
    obtain rfl := Except.ok.inj whole
    have holds : Holds cache q.renderKey .concrete := ⟨_, found, rfl⟩
    obtain ⟨p, member, same⟩ := rendered.1 holds
    have data := made.2 ⟨p, member, Query.dataDefinition_of_definition same⟩
    exact ⟨tells_hit ⟨p, member, same⟩, history.keep keys own (by simp [ofConcrete]) holds data⟩
  | @base e unfinished found =>
    have holds : Holds cache q.dataKey .base := ⟨_, found, rfl⟩
    obtain ⟨_, got, kept⟩ := history.found_cons q q.dataKey
    obtain rfl := Except.ok.inj (got.symm.trans found)
    obtain ⟨t, made', data⟩ := table_of_kept tell List.mem_cons_self (kept _ rfl)
    -- the table read from the blob is the one that was made, so the new entry is one `Kept` knows
    obtain ⟨t', blob, rfl⟩ := ofBase_eq_ok_iff.1 whole.symm
    rw [data, ofBlob_blob made'] at blob
    obtain rfl := Except.ok.inj blob
    have answer : s.Kept (· ∈ q :: past) q.renderKey (concreteEntry q (s.present q t .base)) :=
      .answer List.mem_cons_self made' rfl
    refine ⟨tells_base (mt rendered.2 unfinished.not_holds) (made.1 holds), ?_⟩
    apply history.keep keys own
    · exact List.forall_mem_singleton.2 answer
    · exact holds_set_self answer.readable cache
    · exact holds.set answer.readable fun same => absurd same.symm (keys.apart own own)
  | miss unfinished unmade =>
    obtain ⟨t, made', rfl⟩ := ofFacts_eq_ok_iff.1 whole.symm
    have answer : s.Kept (· ∈ q :: past) q.renderKey (concreteEntry q (s.present q t .miss)) :=
      .answer List.mem_cons_self made' rfl
    have table : s.Kept (· ∈ q :: past) q.dataKey (baseEntry q t) :=
      .table List.mem_cons_self made' rfl
    refine ⟨tells_miss (mt rendered.2 unfinished.not_holds) (mt made.2 unmade.not_holds), ?_⟩
    apply history.keep keys own
    · exact List.forall_mem_cons.2 ⟨answer, List.forall_mem_singleton.2 table⟩
    -- the base table is set last, but not under the key of the finished answer
    · exact (holds_set_self answer.readable cache).set table.readable
        fun same => absurd same (keys.apart own own)
    · exact holds_set_self table.readable _
  | unread _ => contradiction
  | unreadBase _ _ => contradiction

/-- Where a base table is found, no fact is looked at. -/
theorem answer_of_base {e : BaseEntry} (found : Cache.get cache q.dataKey = .ok (some (.base e)))
    (store : FactStore) : answer { s with store } q cache = s.answer q cache := by
  have table : lookUp cache q.dataKey = .ok (some (.base e)) := by rw [lookUp, found]; rfl
  rw [answer, answer, table]
  rfl

/-- Data that was answered before is answered again, whatever the facts are now. -/
theorem History.again (history : s.History asked past cache) (keys : KeysSeparate asked)
    (own : asked q) (before : ∃ p ∈ past, p.dataDefinition = q.dataDefinition) :
    ∃ a, ∀ store, answer { s with store } q cache = .ok a := by
  obtain ⟨e, found⟩ := ((history.data_iff keys own).2 before).base
  have tell : KeysTell (· ∈ q :: past) := keys.toKeysTell.mono (history.known_cons own)
  have sound := history.found_cons q
  simp only [answer_of_base found]
  have right := answers tell List.mem_cons_self (sound q.renderKey) (sound q.dataKey)
  cases given : s.answer q cache with
  | ok a => exact ⟨a, fun _ => rfl⟩
  | error e =>
    rw [given] at right
    cases right with
    | error failed =>
      obtain ⟨_, got, kept⟩ := sound q.dataKey
      obtain rfl := Except.ok.inj (got.symm.trans found)
      obtain ⟨t, made, _⟩ := table_of_kept tell List.mem_cons_self (kept _ rfl)
      cases made.symm.trans failed

/-! Requests. -/

/-- A request asks for a query, or is refused and changes nothing. -/
theorem serve_eq (s : Service) (request : Request) (cache : σ) :
    (s.asked? request = none ∧ ∃ r, s.serve request cache = (.error (.rejected r), cache)) ∨
      ∃ q, s.asked? request = some q ∧ s.serve request cache = s.respond q cache := by
  cases request with
  | query q => exact .inr ⟨q, rfl, rfl⟩
  | text text =>
    simp only [asked?, serve, handle]
    cases s.parse text with
    | error r => exact .inl ⟨rfl, r, rfl⟩
    | ok q => exact .inr ⟨q, rfl, rfl⟩

theorem history_step [LawfulCache σ] {p : Progress σ} (history : s.History asked p.past p.cache)
    (keys : KeysSeparate asked) {request : Request} (own : ∀ q, s.asked? request = some q → asked q) :
    s.History asked (s.step p request).past (s.step p request).cache := by
  rcases s.serve_eq request p.cache with ⟨_, r, refused⟩ | ⟨q, query, served⟩
  · rw [step, refused]
    exact history
  · rw [step, served, respond]
    cases given : s.answer q p.cache with
    | error e => exact history
    | ok a =>
      rw [query]
      exact (history.answered keys (own q query) given).2

theorem history_foldl [LawfulCache σ] {p : Progress σ} (history : s.History asked p.past p.cache)
    (keys : KeysSeparate asked) {requests : List Request}
    (own : ∀ request ∈ requests, ∀ q, s.asked? request = some q → asked q) :
    s.History asked (requests.foldl s.step p).past (requests.foldl s.step p).cache := by
  induction requests generalizing p with
  | nil => exact history
  | cons request requests ih =>
    obtain ⟨first, rest⟩ := List.forall_mem_cons.1 own
    exact ih (history_step history keys first) rest

/-- The past holds the queries of the earlier requests that were answered. -/
theorem mem_past_foldl {p : Progress σ} {requests : List Request} :
    q ∈ (requests.foldl s.step p).past ↔ q ∈ p.past ∨
      ∃ before request after, requests = before ++ request :: after ∧ s.asked? request = some q ∧
        ∃ r, (s.serve request (before.foldl s.step p).cache).1 = .ok r := by
  induction requests generalizing p with
  | nil => simp
  | cons first requests ih =>
    have here : q ∈ (s.step p first).past ↔
        q ∈ p.past ∨ s.asked? first = some q ∧ ∃ r, (s.serve first p.cache).1 = .ok r := by
      rw [step]
      rcases s.serve first p.cache with ⟨_ | r, cache⟩
      · simp
      · simp [or_comm]
    rw [List.foldl_cons, ih, here, or_assoc]
    refine or_congr_right ⟨?_, ?_⟩
    · rintro (⟨asked, success⟩ | ⟨before, request, after, rfl, asked, success⟩)
      · exact ⟨[], first, requests, rfl, asked, success⟩
      · exact ⟨first :: before, request, after, rfl, asked, success⟩
    · rintro ⟨before, request, after, whole, asked, success⟩
      cases before with
      | nil =>
        obtain ⟨rfl, rfl⟩ := List.cons.inj whole
        exact .inl ⟨asked, success⟩
      | cons _ before =>
        obtain ⟨rfl, rfl⟩ := List.cons.inj whole
        exact .inr ⟨before, request, after, rfl, asked, success⟩

theorem mem_past {start : σ} {requests : List Request} : q ∈ (s.progress start requests).past ↔
    ∃ before request after, requests = before ++ request :: after ∧ s.asked? request = some q ∧
      ∃ r, (s.serve request (s.progress start before).cache).1 = .ok r := by
  rw [progress, mem_past_foldl]
  simp [progress]

/-- What the keys that occur are digests of. -/
def messages (s : Service) (requests : List Request) : List (List UInt8) :=
  requests.flatMap fun request => ((s.asked? request).map Query.messages).getD []

theorem keysSeparate {requests : List Request} (free : Sha256.CollisionFree (s.messages requests)) :
    KeysSeparate fun q => ∃ request ∈ requests, s.asked? request = some q := by
  have occurs (q : Query) (asks : ∃ request ∈ requests, s.asked? request = some q) :
      ∀ m ∈ q.messages, m ∈ s.messages requests := by
    obtain ⟨request, member, asked⟩ := asks
    intro m own
    exact List.mem_flatMap.2 ⟨request, member, by rw [asked]; exact own⟩
  refine ⟨⟨?_, ?_⟩, ?_⟩
  · intro q r left right
    exact Query.eq_of_renderKey free (occurs q left) (occurs r right)
  · intro q r left right
    exact Query.eq_of_dataKey free (occurs q left) (occurs r right)
  · intro q r left right same
    refine Query.definition_ne_dataDefinition q r (Query.eq_of_keyOf free ?_ ?_ same)
    · exact occurs q left _ List.mem_cons_self
    · exact occurs r right _ (List.mem_cons_of_mem _ List.mem_cons_self)

/-- The next request, after the earlier ones, gets what the history says: if it is answered its outcome
is told by the queries answered before, and it is answered, with or without the facts, if one of them
has its data definition. -/
structure Follows (s : Service) (p : Progress σ) (request : Request) : Prop where
  outcome : ∀ r, (s.serve request p.cache).1 = .ok r →
    ∃ q, s.asked? request = some q ∧ Tells p.past q r.outcome
  again : ∀ q, s.asked? request = some q → (∃ a ∈ p.past, a.dataDefinition = q.dataDefinition) →
    ∃ r, r.outcome ≠ .miss ∧
      ∀ store, (serve { s with store } request p.cache).1 = .ok r

theorem follows [LawfulCache σ] {p : Progress σ} (history : s.History asked p.past p.cache)
    (keys : KeysSeparate asked) {request : Request} (own : ∀ q, s.asked? request = some q → asked q) :
    s.Follows p request := by
  constructor
  · intro r success
    rcases s.serve_eq request p.cache with ⟨_, _, refused⟩ | ⟨q, query, served⟩
    · rw [refused] at success
      contradiction
    · rw [served, respond] at success
      cases given : s.answer q p.cache with
      | error e =>
        rw [given] at success
        contradiction
      | ok a =>
        rw [given] at success
        obtain rfl := Except.ok.inj success
        exact ⟨q, query, (history.answered keys (own q query) given).1⟩
  · intro q query before
    obtain ⟨a, given⟩ := history.again keys (own q query) before
    refine ⟨a.response, ?_, ?_⟩
    · intro miss
      have told := (history.answered keys (own q query) (given s.store)).1
      exact (told.miss.1 miss).2 before
    · intro store
      rcases serve_eq { s with store } request p.cache with ⟨refused, _⟩ | ⟨q', query', served⟩
      · cases query.symm.trans refused
      · obtain rfl := Option.some.inj (query.symm.trans query')
        rw [served, respond, given store]

theorem follows_of_empty [LawfulCache σ] (empty : ∀ key, Cache.get cache key = .ok none)
    {earlier : List Request} {request : Request}
    (free : Sha256.CollisionFree (s.messages (earlier ++ [request]))) :
    s.Follows (s.progress cache earlier) request := by
  have keys := keysSeparate free
  have before : ∀ r ∈ earlier, ∀ q, s.asked? r = some q →
      ∃ r ∈ earlier ++ [request], s.asked? r = some q :=
    fun r member q asked => ⟨r, List.mem_append_left _ member, asked⟩
  have next : ∀ q, s.asked? request = some q →
      ∃ r ∈ earlier ++ [request], s.asked? r = some q :=
    fun q asked => ⟨request, by simp, asked⟩
  have start : s.History (fun q => ∃ r ∈ earlier ++ [request], s.asked? r = some q) [] cache :=
    history_of_empty empty
  exact follows (history_foldl (p := ⟨cache, []⟩) start keys before) keys next

/-- From an empty cache in memory and from an empty database, with or without the name of an index,
every request gets what the history of the requests before it says. -/
theorem outcome_by_history (s : Service) (earlier : List Request) (request : Request)
    (free : Sha256.CollisionFree (s.messages (earlier ++ [request]))) :
    s.Follows (s.progress MemoryCache.empty earlier) request ∧
      s.Follows (s.progress Database.empty earlier) request ∧
      ∀ index, s.Follows (s.progress (IndexedCache.mk index MemoryCache.empty) earlier) request ∧
        s.Follows (s.progress (IndexedCache.mk index Database.empty) earlier) request := by
  refine ⟨?_, ?_, fun index => ⟨?_, ?_⟩⟩
  all_goals exact follows_of_empty (fun _ => rfl) free

end Service

namespace Sample

/-- A query, no query, and the same data as JSON. -/
def earlier : List Request := [.text text, .text "", .query { query with format := .json }]

end Sample

theorem Service.outcome_of_sample :
    Sha256.CollisionFree (Sample.service.messages (Sample.earlier ++ [.text Sample.text])) ∧
      Sample.service.Follows (Sample.service.progress MemoryCache.empty Sample.earlier)
        (.text Sample.text) ∧
      Sample.service.Follows (Sample.service.progress Database.empty Sample.earlier)
        (.text Sample.text) := by
  have free : Sha256.CollisionFree
      (Sample.service.messages (Sample.earlier ++ [.text Sample.text])) := by decide +kernel
  have told := outcome_by_history Sample.service Sample.earlier (.text Sample.text) free
  exact ⟨free, told.1, told.2.1⟩

end RegionalTables
