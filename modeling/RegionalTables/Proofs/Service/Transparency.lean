import RegionalTables.Proofs.BaseTable.Blob
import RegionalTables.Proofs.BaseTable.Complete
import RegionalTables.Proofs.Cache
import RegionalTables.Proofs.Query.Definition
import RegionalTables.Proofs.Service.Answer
import RegionalTables.Service.Tenant

/-! A cache changes no answer. What is found under a key was kept there for a query of the same
definition, and the answer or the table it kept is the one that would be made anew. -/
namespace RegionalTables

namespace Service

/-- What an asked query keeps under its keys: its answer and its base table. -/
inductive Kept (s : Service) (asked : Query → Prop) (key : String) : CacheEntry → Prop where
  | answer {q : Query} {t : BaseTable} (origin : asked q) (made : s.baseTable q = .ok t)
      (place : key = q.renderKey) : Kept s asked key (concreteEntry q (s.present q t .miss))
  | table {q : Query} {t : BaseTable} (origin : asked q) (made : s.baseTable q = .ok t)
      (place : key = q.dataKey) : Kept s asked key (baseEntry q t)

theorem Kept.readable {s : Service} {asked : Query → Prop} {key : String} {e : CacheEntry}
    (kept : s.Kept asked key e) : e.Readable := by
  cases kept with
  | answer => exact Nat.lt_of_le_of_lt (Query.depth_definition_le _) (by decide)
  | table => exact Nat.lt_of_le_of_lt (Query.depth_dataDefinition_le _) (by decide)

theorem Kept.plain {s : Service} {asked : Query → Prop} {key : String} {e : CacheEntry}
    (kept : s.Kept asked key e) : '/' ∉ key.toList := by
  cases kept with
  | answer _ _ place | table _ _ place =>
    rw [place]
    exact Sha256.slash_not_mem_hex _

/-- Equal keys stand for equal definitions, as far as queries are asked. -/
structure KeysTell (asked : Query → Prop) : Prop where
  render {q r : Query} : asked q → asked r → q.renderKey = r.renderKey →
    { q with source := r.source } = r
  data {q r : Query} : asked q → asked r → q.dataKey = r.dataKey → q.presentedAs r = r

/-- All that is found under a key has been kept there by an asked query. -/
def Found [Cache σ] (s : Service) (asked : Query → Prop) (cache : σ) (key : String) : Prop :=
  ∃ found, Cache.get cache key = .ok found ∧ ∀ e, found = some e → s.Kept asked key e

/-- The answer shows the base table made anew, and what it adds to the cache is its own. -/
structure Correct (s : Service) (asked : Query → Prop) (q : Query) (t : BaseTable) (a : Answer) :
    Prop where
  payload : a.response.payload = (s.present q t .miss).payload
  entries : ∀ e ∈ a.entries, s.Kept asked e.1 e.2

variable {s : Service} {asked : Query → Prop} {q r : Query} {t : BaseTable}

theorem baseTable_of_render (same : { q with source := r.source } = r) :
    s.baseTable r = s.baseTable q := by
  rw [← same]
  rfl

theorem present_of_render (same : { q with source := r.source } = r) (outcome : Outcome) :
    s.present r t outcome = s.present q t outcome := by
  rw [← same]
  rfl

theorem baseTable_of_data (same : q.presentedAs r = r) : s.baseTable r = s.baseTable q := by
  rw [← same]
  rfl

theorem correct_ofFacts (own : asked q) (made : s.baseTable q = .ok t) :
    ∃ a, s.ofFacts q = .ok a ∧ s.Correct asked q t a := by
  refine ⟨_, by rw [ofFacts, made]; rfl, rfl, ?_⟩
  intro e member
  simp only [List.mem_cons, List.not_mem_nil, or_false] at member
  rcases member with rfl | rfl
  · exact .answer own made rfl
  · exact .table own made rfl

theorem correct_ofBase (own : asked q) (made : s.baseTable q = .ok t) {e : BaseEntry}
    (data : e.data = t.blob) : ∃ a, s.ofBase q e = .ok a ∧ s.Correct asked q t a := by
  refine ⟨_, by rw [ofBase, data, ofBlob_blob made]; rfl, rfl, ?_⟩
  intro e member
  obtain rfl := List.mem_singleton.1 member
  exact .answer own made rfl

theorem correct_ofConcrete {e : ConcreteEntry} (tell : KeysTell asked) (own : asked q)
    (kept : s.Kept asked q.renderKey (.concrete e)) :
    ∃ t, s.baseTable q = .ok t ∧ s.Correct asked q t (ofConcrete e) := by
  cases kept with
  | @answer r t origin made place =>
    have same := tell.render origin own place.symm
    refine ⟨t, (baseTable_of_render same).trans made, ?_, by simp [ofConcrete]⟩
    rw [present_of_render same]
    rfl

theorem table_of_kept {e : BaseEntry} (tell : KeysTell asked) (own : asked q)
    (kept : s.Kept asked q.dataKey (.base e)) : ∃ t, s.baseTable q = .ok t ∧ e.data = t.blob := by
  cases kept with
  | @table r t origin made place =>
    exact ⟨t, (baseTable_of_data (tell.data origin own place.symm)).trans made, rfl⟩

/-- The answer is right, or the store fails. -/
inductive Answers (s : Service) (asked : Query → Prop) (q : Query) : Except ServiceError Answer → Prop
  | ok {t : BaseTable} {a : Answer} (made : s.baseTable q = .ok t) (correct : s.Correct asked q t a) :
      Answers s asked q (.ok a)
  | error {e : StoreError} (failed : s.baseTable q = .error e) : Answers s asked q (.error (.store e))

theorem answers_ofFacts (own : asked q) : s.Answers asked q (s.ofFacts q) := by
  cases made : s.baseTable q with
  | error e =>
    rw [ofFacts, made]
    exact .error made
  | ok t =>
    obtain ⟨a, answered, correct⟩ := correct_ofFacts own made
    rw [answered]
    exact .ok made correct

theorem answers [Cache σ] {cache : σ} (tell : KeysTell asked) (own : asked q)
    (finished : s.Found asked cache q.renderKey) (tables : s.Found asked cache q.dataKey) :
    s.Answers asked q (s.answer q cache) := by
  obtain ⟨_, gotFinished, keptFinished⟩ := finished
  obtain ⟨_, gotTable, keptTable⟩ := tables
  have ways := s.answered q cache
  generalize s.answer q cache = result at ways ⊢
  cases ways with
  | @hit e found =>
    obtain rfl := Except.ok.inj (gotFinished.symm.trans found)
    obtain ⟨t, made, correct⟩ := correct_ofConcrete tell own (keptFinished _ rfl)
    exact .ok made correct
  | @base e _ found =>
    obtain rfl := Except.ok.inj (gotTable.symm.trans found)
    obtain ⟨t, made, data⟩ := table_of_kept tell own (keptTable _ rfl)
    obtain ⟨a, given, correct⟩ := correct_ofBase own made data
    rw [given]
    exact .ok made correct
  -- an answer under the data key counts as none, so no data key need differ from all render keys
  | miss => exact answers_ofFacts own
  | unread failed => cases gotFinished.symm.trans failed
  | unreadBase _ failed => cases gotTable.symm.trans failed

theorem Answers.payload_eq {x y : Except ServiceError Answer} (left : s.Answers asked q x)
    (right : s.Answers asked q y) : x.map (·.response.payload) = y.map (·.response.payload) := by
  cases left with
  | error failed =>
    cases right with
    | error failed' => rw [Except.error.inj (failed.symm.trans failed')]
    | ok made => cases failed.symm.trans made
  | ok made correct =>
    cases right with
    | error failed => cases made.symm.trans failed
    | ok made' correct' =>
      obtain rfl := Except.ok.inj (made.symm.trans made')
      exact congrArg Except.ok (correct.payload.trans correct'.payload.symm)

theorem respond_payload [Cache σ] (s : Service) (q : Query) (cache : σ) :
    (s.respond q cache).1.map Response.payload = (s.answer q cache).map (·.response.payload) := by
  rw [respond]
  cases s.answer q cache <;> rfl

end Service

namespace Tenant

variable {ι : Type u} {σ : Type} [Cache σ] {tenants : ι → Tenant} {asked : ι → Query → Prop}

/-- All that a tenant may find in the backend has been kept there for a query asked of it. Keys with
a slash are left out: under another index they could stand for something else. -/
def Sound (tenants : ι → Tenant) (asked : ι → Query → Prop) (backend : σ) : Prop :=
  ∀ i key, '/' ∉ key.toList →
    (tenants i).service.Found (asked i) (IndexedCache.mk (tenants i).index backend) key

theorem sound_of_empty {backend : σ} (empty : ∀ key, Cache.get backend key = .ok none) :
    Sound tenants asked backend := by
  intro i key _
  exact ⟨none, empty _, fun e found => by contradiction⟩

variable (apart : ∀ i j, (tenants i).index = (tenants j).index → i = j) {backend : σ}

include apart

theorem sound_set [LawfulCache σ] (sound : Sound tenants asked backend) {i : ι} {key : String}
    {e : CacheEntry} (kept : (tenants i).service.Kept (asked i) key e) :
    Sound tenants asked
      (Cache.set backend (IndexedCache.keyUnder (tenants i).index key) e) := by
  intro j k plain
  have get := LawfulCache.get_set backend (IndexedCache.keyUnder (tenants i).index key)
    kept.readable (IndexedCache.keyUnder (tenants j).index k)
  by_cases same : IndexedCache.keyUnder (tenants j).index k =
      IndexedCache.keyUnder (tenants i).index key
  · obtain ⟨index, rfl⟩ := IndexedCache.keyUnder_injective plain kept.plain same
    obtain rfl := apart j i index
    rw [if_pos rfl] at get
    refine ⟨some e, get, ?_⟩
    intro _ found
    obtain rfl := Option.some.inj found
    exact kept
  · obtain ⟨found, got, each⟩ := sound j k plain
    rw [if_neg same] at get
    exact ⟨found, get.trans got, each⟩

theorem sound_keep [LawfulCache σ] (sound : Sound tenants asked backend) {i : ι}
    {entries : List (String × CacheEntry)}
    (kept : ∀ e ∈ entries, (tenants i).service.Kept (asked i) e.1 e.2) :
    Sound tenants asked (Service.keep (IndexedCache.mk (tenants i).index backend) entries).inner := by
  induction entries generalizing backend with
  | nil => exact sound
  | cons e entries ih =>
    obtain ⟨first, rest⟩ := List.forall_mem_cons.1 kept
    exact ih (sound_set apart sound first) rest

variable (tell : ∀ i, Service.KeysTell (asked i))

include tell

theorem respond_sound [LawfulCache σ] (sound : Sound tenants asked backend) {i : ι} {q : Query}
    (own : asked i q) :
    ((tenants i).serve (.query q) backend).1.map Response.payload =
        ((tenants i).service.alone (.query q)).map Response.payload ∧
      Sound tenants asked ((tenants i).serve (.query q) backend).2 := by
  have here := Service.answers (tell i) own (sound i q.renderKey (Sha256.slash_not_mem_hex _))
    (sound i q.dataKey (Sha256.slash_not_mem_hex _))
  -- no cache at all is one where nothing is found, so both answers are right by the same lemma
  have nothing (key : String) :
      (tenants i).service.Found (asked i) (none : Option MemoryCache) key :=
    ⟨none, rfl, fun e found => by contradiction⟩
  have there := Service.answers (tell i) own (nothing q.renderKey) (nothing q.dataKey)
  constructor
  · simp only [serve, Service.serve, Service.alone, Service.respond_payload]
    exact here.payload_eq there
  · simp only [serve, Service.serve, Service.respond]
    cases answered : (tenants i).service.answer q (IndexedCache.mk (tenants i).index backend) with
    | error e => exact sound
    | ok a =>
      rw [answered] at here
      cases here with
      | ok _ correct => exact sound_keep apart sound correct.entries

/-- A request gets what it gets alone, and leaves the backend sound. -/
theorem serve_sound [LawfulCache σ] (sound : Sound tenants asked backend) {i : ι}
    {request : Request}
    (own : ∀ q, (tenants i).service.asked? request = some q → asked i q) :
    ((tenants i).serve request backend).1.map Response.payload =
        ((tenants i).service.alone request).map Response.payload ∧
      Sound tenants asked ((tenants i).serve request backend).2 := by
  cases request with
  | query q => exact respond_sound apart tell sound (own q rfl)
  | text text =>
    cases parsed : (tenants i).service.parse text with
    | error r =>
      simp only [serve, Service.serve, Service.alone, Service.handle, parsed]
      exact ⟨trivial, sound⟩
    | ok q =>
      have step := respond_sound apart tell sound (own q (by rw [Service.asked?, parsed]; rfl))
      simp only [serve, Service.serve, Service.alone, Service.handle, parsed] at step ⊢
      exact step

/-- Requests get, one after another, what each of them gets alone. -/
theorem run_of_sound [LawfulCache σ] (sound : Sound tenants asked backend)
    {requests : List (ι × Request)}
    (own : ∀ p ∈ requests, ∀ q, (tenants p.1).service.asked? p.2 = some q → asked p.1 q) :
    (run tenants backend requests).map (·.map Response.payload) =
      requests.map fun p => ((tenants p.1).service.alone p.2).map Response.payload := by
  induction requests generalizing backend with
  | nil => rfl
  | cons p requests ih =>
    obtain ⟨first, rest⟩ := List.forall_mem_cons.1 own
    obtain ⟨same, sound⟩ := serve_sound apart tell sound first
    rw [run, List.map_cons, List.map_cons, same, ih sound rest]

omit apart tell

/-- The query is asked of the tenant in one of the requests. -/
def Asks (tenants : ι → Tenant) (requests : List (ι × Request)) (i : ι) (q : Query) : Prop :=
  ∃ p ∈ requests, p.1 = i ∧ (tenants i).service.asked? p.2 = some q

/-- What the keys that occur are digests of. -/
def messages (tenants : ι → Tenant) (requests : List (ι × Request)) : List (List UInt8) :=
  requests.flatMap fun p =>
    (((tenants p.1).service.asked? p.2).map Query.messages).getD []

theorem mem_messages {requests : List (ι × Request)} {i : ι} {q : Query}
    (asks : Asks tenants requests i q) : ∀ m ∈ q.messages, m ∈ messages tenants requests := by
  intro m member
  obtain ⟨p, own, rfl, asked⟩ := asks
  exact List.mem_flatMap.2 ⟨p, own, by rw [asked]; exact member⟩

theorem keysTell {requests : List (ι × Request)}
    (free : Sha256.CollisionFree (messages tenants requests)) (i : ι) :
    Service.KeysTell (Asks tenants requests i) where
  render left right := Query.eq_of_renderKey free (mem_messages left) (mem_messages right)
  data left right := Query.eq_of_dataKey free (mem_messages left) (mem_messages right)

/-- Requests to services under different index names, in a shared cache in memory or a shared
database, get what they get alone. -/
theorem run_transparent (tenants : ι → Tenant)
    (apart : ∀ i j, (tenants i).index = (tenants j).index → i = j)
    (requests : List (ι × Request))
    (free : Sha256.CollisionFree (messages tenants requests)) :
    ((run tenants MemoryCache.empty requests).map (·.map Response.payload) =
        requests.map fun p => ((tenants p.1).service.alone p.2).map Response.payload) ∧
      (run tenants Database.empty requests).map (·.map Response.payload) =
        requests.map fun p => ((tenants p.1).service.alone p.2).map Response.payload := by
  have own : ∀ p ∈ requests, ∀ q, (tenants p.1).service.asked? p.2 = some q →
      Asks tenants requests p.1 q := fun p member _ asked => ⟨p, member, rfl, asked⟩
  constructor
  · exact run_of_sound apart (keysTell free) (sound_of_empty fun _ => rfl) own
  · exact run_of_sound apart (keysTell free) (sound_of_empty fun _ => rfl) own

end Tenant

namespace Sample

/-- Two services that differ in their facts, under names of which one begins the other. -/
def tenants : Bool → Tenant
  | false => ⟨"genesis", service⟩
  | true => ⟨"genesis/men", { service with store := ⟨"men", .memory [men]⟩ }⟩

/-- One query to both services, twice to the first and there once more as JSON; then no query. -/
def requests : List (Bool × Request) :=
  [(false, .text text), (true, .text text), (false, .text text),
    (false, .query { query with format := .json }), (true, .text "")]

end Sample

theorem Tenant.run_of_samples :
    (∀ i j, (Sample.tenants i).index = (Sample.tenants j).index → i = j) ∧
      Sha256.CollisionFree (messages Sample.tenants Sample.requests) ∧
      ((run Sample.tenants MemoryCache.empty Sample.requests).map (·.map Response.payload) =
        Sample.requests.map fun p =>
          ((Sample.tenants p.1).service.alone p.2).map Response.payload) ∧
      (run Sample.tenants Database.empty Sample.requests).map (·.map Response.payload) =
        Sample.requests.map fun p =>
          ((Sample.tenants p.1).service.alone p.2).map Response.payload := by
  have apart : ∀ i j, (Sample.tenants i).index = (Sample.tenants j).index → i = j := by decide
  have free : Sha256.CollisionFree (messages Sample.tenants Sample.requests) := by decide +kernel
  exact ⟨apart, free, run_transparent Sample.tenants apart Sample.requests free⟩

end RegionalTables
