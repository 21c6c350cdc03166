import RegionalTables.Filter.Search
import RegionalTables.Service.Basic

/-! Reports on a query: how it was understood, what is asked of the store, and the table in every
format. -/
namespace RegionalTables

open Json

structure Report where
  definition : Document
  body : Value
  /-- A failing store is part of the report. -/
  table : Except ServiceError Renderings

namespace Renderings

def toValue (r : Renderings) : Value :=
  .object [("csv", .string r.csv), ("tsv", .string r.tsv), ("json", .string r.json)]

end Renderings

namespace Report

def tableValue (r : Report) : Value :=
  match r.table with
  | .ok all => all.toValue
  | .error e => .string e.message

def toValue (r : Report) : Value := .object [
  ("data", r.definition.value),
  ("query_body", r.body),
  ("table", r.tableValue)]

end Report

namespace Service

/-- No cache is read or written. -/
def report (s : Service) (text : String) : Except Rejection Report := do
  let q ← s.parse text
  return {
    definition := q.definition
    body := (Filter.ofQuery s.catalog q).body
    table := ((s.baseTable q).mapError .store).map (s.presentation q).renderAll }

end Service

/-- The body of the response to a rejected query. -/
def Rejection.body (r : Rejection) : Value := .object [("error", .string r.message)]

end RegionalTables
