import RegionalTables.Proofs.Service.FactOrder
import RegionalTables.Service.Report

/-! Reports beside answers. A report is made for the texts that are read as queries. It shows in every
format what a service that keeps nothing would answer, or why there is no answer, and it asks the
store with the filter of the answer. Between requests reports go unnoticed. -/
namespace RegionalTables

open Json

def Renderings.text (all : Renderings) : Format → String
  | .csv => all.csv
  | .tsv => all.tsv
  | .json => all.json

/-- What a report tells of a query read from a text, by what the service does for it. -/
structure Report.Agrees (s : Service) (text : String) (q : Query) (report : Report) : Prop where
  definition : report.definition = q.definition
  /-- What the table is made of. -/
  fetched : s.baseTable q =
    (s.store.facts (Filter.ofQuery s.catalog q)).map (BaseTable.ofFacts (s.view q) q)
  /-- The request that is shown asks for the same facts. -/
  body : report.body = .object [("query", .object [("constant_score", .object [("filter",
    (Filter.ofQuery s.catalog q).search)])])]
  /-- Each table is the answer to the query for its format, whatever text that is read from. -/
  answered (response : Response) : s.alone (.text text) = .ok response →
    ∃ all, report.table = .ok all ∧ report.tableValue = all.toValue ∧
      ∀ format source request, s.asked? request = some { q with format, source } →
        (s.alone request).map (·.content) = .ok (all.text format)
  /-- The store is all that can fail. -/
  failed (e : ServiceError) : s.alone (.text text) = .error e →
    (∃ e', e = .store e') ∧ report.table = .error e ∧ report.tableValue = .string e.message

/-- A request, or the text of a query to report on. -/
inductive Inquiry where
  | request (request : Request)
  | report (text : String)

inductive Reply where
  | response (result : Except ServiceError Response)
  | report (result : Except Rejection Report)

def Inquiry.request? : Inquiry → Option Request
  | .request asked => some asked
  | .report _ => none

def Inquiry.reported? : Inquiry → Option String
  | .request _ => none
  | .report text => some text

def Reply.response? : Reply → Option (Except ServiceError Response)
  | .response result => some result
  | .report _ => none

def Reply.report? : Reply → Option (Except Rejection Report)
  | .response _ => none
  | .report result => some result

namespace Service

variable {σ : Type} [Cache σ]

/-- The results of requests, each made after the ones before it, and what the cache is then. -/
def serveAll (s : Service) (cache : σ) : List Request → List (Except ServiceError Response) × σ
  | [] => ([], cache)
  | request :: rest =>
    let (result, cache) := s.serve request cache
    let (results, cache) := s.serveAll cache rest
    (result :: results, cache)

def reply (s : Service) (inquiry : Inquiry) (cache : σ) : Reply × σ :=
  match inquiry with
  | .request request =>
    let (result, cache) := s.serve request cache
    (.response result, cache)
  | .report text => (.report (s.report text), cache)

/-- The same with reports in between. -/
def replyAll (s : Service) (cache : σ) : List Inquiry → List Reply × σ
  | [] => ([], cache)
  | inquiry :: rest =>
    let (reply, cache) := s.reply inquiry cache
    let (replies, cache) := s.replyAll cache rest
    (reply :: replies, cache)

theorem serveAll_cons (s : Service) (cache : σ) (request : Request) (rest : List Request) :
    s.serveAll cache (request :: rest) =
      ((s.serve request cache).1 :: (s.serveAll (s.serve request cache).2 rest).1,
        (s.serveAll (s.serve request cache).2 rest).2) := rfl

theorem replyAll_cons (s : Service) (cache : σ) (inquiry : Inquiry) (rest : List Inquiry) :
    s.replyAll cache (inquiry :: rest) =
      ((s.reply inquiry cache).1 :: (s.replyAll (s.reply inquiry cache).2 rest).1,
        (s.replyAll (s.reply inquiry cache).2 rest).2) := rfl

/-- Requests are served as if there were no reports. -/
theorem replyAll_requests (s : Service) (cache : σ) (inquiries : List Inquiry) :
    ((s.replyAll cache inquiries).1.filterMap Reply.response?, (s.replyAll cache inquiries).2) =
      s.serveAll cache (inquiries.filterMap Inquiry.request?) := by
  induction inquiries generalizing cache with
  | nil => rfl
  | cons inquiry rest ih =>
    rw [replyAll_cons]
    cases inquiry with
    | request request =>
      rw [List.filterMap_cons_some (by rfl), List.filterMap_cons_some (by rfl), serveAll_cons,
        ← ih (s.serve request cache).2]
      rfl
    | report text => exact ih cache

/-- Reports are made as if there were no requests. -/
theorem replyAll_reports (s : Service) (cache : σ) (inquiries : List Inquiry) :
    (s.replyAll cache inquiries).1.filterMap Reply.report? =
      (inquiries.filterMap Inquiry.reported?).map s.report := by
  induction inquiries generalizing cache with
  | nil => rfl
  | cons inquiry rest ih =>
    rw [replyAll_cons]
    cases inquiry with
    | request request => exact ih (s.serve request cache).2
    | report text => exact congrArg (s.report text :: ·) (ih cache)

variable {s : Service} {q : Query} {text : String}

/-- Where nothing is kept an answer fails only in the store. -/
theorem alone_query_of_error {e : StoreError} (failed : s.baseTable q = .error e) :
    s.alone (.query q) = .error (.store e) := by
  have answered : s.answer q (none : Option MemoryCache) = s.ofFacts q := rfl
  simp only [alone, serve, respond, answered, ofFacts, failed]
  rfl

/-- The table does not depend on the format it is asked for in. -/
theorem content_of_format (q : Query) (t : BaseTable) (format : Format) (source : String) :
    (s.present { q with format, source } t .miss).content =
      ((s.presentation q).renderAll t).text format := by
  cases format <;> rfl

theorem baseTable_of_format (q : Query) (format : Format) (source : String) :
    s.baseTable { q with format, source } = s.baseTable q := rfl

theorem report_of_parse (parsed : s.parse text = .ok q) : s.report text = .ok {
    definition := q.definition
    body := (Filter.ofQuery s.catalog q).body
    table := ((s.baseTable q).mapError .store).map (s.presentation q).renderAll } := by
  rw [report, parsed]
  rfl

theorem agrees_of_parse (parsed : s.parse text = .ok q) :
    ∃ report, s.report text = .ok report ∧ report.Agrees s text q := by
  have asked : s.asked? (.text text) = some q := by rw [asked?, parsed]; rfl
  refine ⟨_, report_of_parse parsed, rfl, rfl, rfl, fun response given => ?_, fun e given => ?_⟩
  · rw [alone_of_asked asked] at given
    cases made : s.baseTable q with
    | error e => simp [alone_query_of_error made] at given
    | ok t =>
      refine ⟨(s.presentation q).renderAll t, rfl, rfl, ?_⟩
      intro format source request asked
      have made' := (baseTable_of_format q format source).trans made
      rw [alone_of_asked asked, alone_query made']
      exact congrArg Except.ok (content_of_format q t format source)
  · rw [alone_of_asked asked] at given
    cases made : s.baseTable q with
    | error e' =>
      rw [alone_query_of_error made] at given
      obtain rfl := Except.error.inj given
      exact ⟨⟨e', rfl⟩, rfl, rfl⟩
    | ok t => simp [alone_query made] at given

/-- A text is reported on unless it is rejected, and then the rejection is the same. The report agrees
with the answer of a service that keeps nothing. With any cache, reports between requests change
neither the cache nor what the requests are given, and say the same as anywhere else. -/
theorem report_agrees (s : Service) (text : String) :
    (∀ r, s.report text = .error r ↔ s.parse text = .error r) ∧
      (∀ q, s.parse text = .ok q → ∃ report, s.report text = .ok report ∧ report.Agrees s text q) ∧
      ∀ (σ : Type) [Cache σ] (cache : σ) (inquiries : List Inquiry),
        ((s.replyAll cache inquiries).1.filterMap Reply.response?, (s.replyAll cache inquiries).2) =
            s.serveAll cache (inquiries.filterMap Inquiry.request?) ∧
          (s.replyAll cache inquiries).1.filterMap Reply.report? =
            (inquiries.filterMap Inquiry.reported?).map s.report := by
  refine ⟨fun r => ?_, fun q parsed => agrees_of_parse parsed, fun σ _ cache inquiries =>
    ⟨s.replyAll_requests cache inquiries, s.replyAll_reports cache inquiries⟩⟩
  cases parsed : s.parse text with
  | error r' => rw [report, parsed]; simp [bind, Except.bind]
  | ok q => simp [report_of_parse parsed]

end Service

end RegionalTables
