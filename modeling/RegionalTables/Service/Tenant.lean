import RegionalTables.Service.Basic

/-! Requests one after another. Services may share a store of entries, in which each keeps its own
under the name of its index. -/
namespace RegionalTables

/-- The text of a query, or a query that has been read already. -/
inductive Request where
  | text (text : String)
  | query (q : Query)

/-- What a client is given, wherever it comes from. -/
structure Payload where
  content : String
  mimetype : String
  cubes : List String
  deriving DecidableEq

def Response.payload (r : Response) : Payload := ⟨r.content, r.mimetype, r.cubes⟩

namespace Service

def serve [Cache σ] (s : Service) (request : Request) (cache : σ) :
    Except ServiceError Response × σ :=
  match request with
  | .text text => s.handle text cache
  | .query q => s.respond q cache

/-- The query of a request, unless its text is rejected. -/
def asked? (s : Service) : Request → Option Query
  | .text text => (s.parse text).toOption
  | .query q => some q

/-- The result of a request where nothing is kept. -/
def alone (s : Service) (request : Request) : Except ServiceError Response :=
  (s.serve request (none : Option MemoryCache)).1

end Service

/-- A service with the name its entries are kept under. -/
structure Tenant where
  index : String
  service : Service

namespace Tenant

def serve [Cache σ] (t : Tenant) (request : Request) (backend : σ) :
    Except ServiceError Response × σ :=
  let (result, cache) := t.service.serve request (IndexedCache.mk t.index backend)
  (result, cache.inner)

/-- The results of requests, each made to one of the tenants after the ones before it. -/
def run [Cache σ] (tenants : ι → Tenant) (backend : σ) :
    List (ι × Request) → List (Except ServiceError Response)
  | [] => []
  | (i, request) :: rest =>
    let (result, backend) := (tenants i).serve request backend
    result :: run tenants backend rest

end Tenant

end RegionalTables
