import RegionalTables.BaseTable.Blob
import RegionalTables.Cache.Basic
import RegionalTables.Catalog.Check
import RegionalTables.FactStore
import RegionalTables.Filter.OfQuery
import RegionalTables.Presentation.Rendering
import RegionalTables.Query.Key
import RegionalTables.Query.Reading

/-! Answering queries. A finished answer is looked up first, then a base table to present, and only
then the facts are read. What is new is kept once the answer is complete. -/
namespace RegionalTables

inductive ServiceError where
  | rejected (r : Rejection)
  | store (e : StoreError)
  | cache (e : CacheError)
  /-- A kept base table that cannot be read. -/
  | blob (e : BaseTable.BlobError)
  deriving DecidableEq

def ServiceError.message : ServiceError → String
  | .rejected r => r.message
  | .store e => "Fact store error: " ++ e.message
  | .cache e => "Cache error: " ++ e.message
  | .blob .json => "JSON serialization error: not a base table"
  | .blob .base64 => "Corrupt base table blob: not Base64"

/-- Where an answer comes from. -/
inductive Outcome where
  | hit
  | base
  | miss
  deriving DecidableEq

structure Response where
  content : String
  mimetype : String
  cubes : List String
  outcome : Outcome
  deriving DecidableEq

structure Service where
  catalog : Catalog
  names : RegionNames
  store : FactStore

namespace Service

/-- Reads a query and checks it against the catalog and the regions. -/
def parse (s : Service) (text : String) : Except Rejection Query := s.catalog.parse s.names text

def view (s : Service) (q : Query) : Catalog := s.catalog.restrict q.data

/-- The facts that pass the query's filter, or the first error in the store. -/
def facts (s : Service) (q : Query) : Except StoreError (List Fact) :=
  s.store.facts (Filter.ofQuery s.catalog q)

/-- The base table made from facts. -/
def baseTable (s : Service) (q : Query) : Except StoreError BaseTable := do
  return .ofFacts (s.view q) q (← s.facts q)

def presentation (s : Service) (q : Query) : Presentation := ⟨s.view q, s.names, q⟩

def present (s : Service) (q : Query) (t : BaseTable) (outcome : Outcome) : Response where
  content := (s.presentation q).render t
  mimetype := q.format.mimetype
  cubes := t.cubes
  outcome := outcome

def concreteEntry (q : Query) (r : Response) : CacheEntry := .concrete {
  content := r.content
  mimetype := r.mimetype
  cubes := r.cubes
  definition := q.definition
  source := some q.source }

def baseEntry (q : Query) (t : BaseTable) : CacheEntry := .base {
  data := t.blob
  cubes := t.cubes
  definition := q.dataDefinition }

/-- A response with the entries to keep for the future. -/
structure Answer where
  response : Response
  entries : List (String × CacheEntry)

def lookUp [Cache σ] (cache : σ) (key : String) : Except ServiceError (Option CacheEntry) :=
  (Cache.get cache key).mapError .cache

/-- An answer from a finished rendering. -/
def ofConcrete (e : ConcreteEntry) : Answer := ⟨⟨e.content, e.mimetype, e.cubes, .hit⟩, []⟩

/-- An answer from a kept base table. -/
def ofBase (s : Service) (q : Query) (e : BaseEntry) : Except ServiceError Answer := do
  let table ← (BaseTable.ofBlob e.data).mapError .blob
  let response := s.present q table .base
  return ⟨response, [(q.renderKey, concreteEntry q response)]⟩

/-- An answer from the facts. -/
def ofFacts (s : Service) (q : Query) : Except ServiceError Answer := do
  let table ← (s.baseTable q).mapError .store
  let response := s.present q table .miss
  return ⟨response, [(q.renderKey, concreteEntry q response), (q.dataKey, baseEntry q table)]⟩

/-- An entry of the wrong kind counts as none. -/
def answer [Cache σ] (s : Service) (q : Query) (cache : σ) : Except ServiceError Answer := do
  match ← lookUp cache q.renderKey with
  | some (.concrete e) => return ofConcrete e
  | _ =>
    match ← lookUp cache q.dataKey with
    | some (.base e) => s.ofBase q e
    | _ => s.ofFacts q

def keep [Cache σ] (cache : σ) (entries : List (String × CacheEntry)) : σ :=
  entries.foldl (fun cache e => Cache.set cache e.1 e.2) cache

/-- Answers a query; an error changes nothing. -/
def respond [Cache σ] (s : Service) (q : Query) (cache : σ) : Except ServiceError Response × σ :=
  match s.answer q cache with
  | .ok a => (.ok a.response, keep cache a.entries)
  | .error e => (.error e, cache)

/-- Answers the text of a query. -/
def handle [Cache σ] (s : Service) (text : String) (cache : σ) : Except ServiceError Response × σ :=
  match s.parse text with
  | .ok q => s.respond q cache
  | .error r => (.error (.rejected r), cache)

end Service

end RegionalTables
