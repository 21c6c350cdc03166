import RegionalTables.Proofs.BaseTable.ClosedWorld
import RegionalTables.Proofs.BaseTable.Order
import RegionalTables.Proofs.Presentation.Order
import RegionalTables.Service.Tenant

/-! Services over the same facts in another order. What is rendered depends on the facts alone, as
long as the rows made from them are told apart. -/
namespace RegionalTables

namespace Service

/-- The service over these facts in memory. -/
def holding (s : Service) (index : String) (facts : List Fact) : Service :=
  { s with store := ⟨index, .memory facts⟩ }

theorem alone_of_asked {s : Service} {request : Request} {q : Query}
    (asked : s.asked? request = some q) : s.alone request = s.alone (.query q) := by
  cases request with
  | query q' => rw [Option.some.inj asked]
  | text text =>
    cases parsed : s.parse text with
    | error r => simp [asked?, parsed, Except.toOption] at asked
    | ok q' =>
      have same : q' = q := by simpa [asked?, parsed, Except.toOption] using asked
      simp only [alone, serve, handle, parsed, same]

/-- Where nothing is kept the table is made from the facts. -/
theorem alone_query {s : Service} {q : Query} {t : BaseTable} (made : s.baseTable q = .ok t) :
    s.alone (.query q) = .ok (s.present q t .miss) := by
  have answered : s.answer q (none : Option MemoryCache) = s.ofFacts q := rfl
  simp only [alone, serve, respond, answered, ofFacts, made]
  rfl

/-- The content of a response does not depend on the order of the facts. -/
theorem content_of_reordered {s : Service} {index index' : String} {facts facts' : List Fact}
    {request : Request} {q : Query} (same : facts.Perm facts') (asked : s.asked? request = some q)
    (tells : ∀ t, (s.holding index facts).baseTable q = .ok t → t.Tells q.layout) :
    ∃ content, ((s.holding index facts).alone request).map (·.content) = .ok content ∧
      ((s.holding index' facts').alone request).map (·.content) = .ok content := by
  have made := baseTable_of_memory (s := s.holding index facts) rfl q
  have made' := baseTable_of_memory (s := s.holding index' facts') rfl q
  have rows := BaseTable.observations_perm (same.filter (Filter.ofQuery s.catalog q).accepts) q
    (s.view q)
  have frame := Presentation.frame_eq_of_perm (p := s.presentation q) rows (tells _ made)
  have left : (s.holding index facts).asked? request = some q := asked
  have right : (s.holding index' facts').asked? request = some q := asked
  rw [alone_of_asked left, alone_of_asked right, alone_query made, alone_query made']
  refine ⟨_, rfl, ?_⟩
  exact congrArg (fun f => Except.ok ((s.presentation q).encode q.format f)) frame.symm

end Service

namespace Sample

/-- Births of another year, not counted by sex. -/
def bornEarlier : Fact := .ofList [
  ("BEV001", .byte 3),
  ("region_id", .string "11"),
  ("statistic", .string "12612"),
  ("year", .string "2014")]

end Sample

theorem Service.content_of_births :
    [Sample.born, Sample.bornEarlier].Perm [Sample.bornEarlier, Sample.born] ∧
      Sample.birthService.asked? (.text Sample.birthText) = some Sample.birthQuery ∧
      (∀ t, (Sample.birthService.holding "genesis"
        [Sample.born, Sample.bornEarlier]).baseTable Sample.birthQuery = .ok t → t.Tells .long) ∧
      ∃ content,
        ((Sample.birthService.holding "genesis" [Sample.born, Sample.bornEarlier]).alone
          (.text Sample.birthText)).map (·.content) = .ok content ∧
        ((Sample.birthService.holding "genesis" [Sample.bornEarlier, Sample.born]).alone
          (.text Sample.birthText)).map (·.content) = .ok content := by
  have same : [Sample.born, Sample.bornEarlier].Perm [Sample.bornEarlier, Sample.born] := .swap ..
  have asked : Sample.birthService.asked? (.text Sample.birthText) = some Sample.birthQuery := by
    decide +kernel
  have made : (Sample.birthService.holding "genesis" [Sample.born, Sample.bornEarlier]).baseTable
      Sample.birthQuery = .ok ⟨[⟨"11", "2015", "12612", "BEV001", .integer 1, .empty⟩,
        ⟨"11", "2014", "12612", "BEV001", .integer 3, .empty⟩,
        ⟨"11", "2015", "12612", "BEV002", .integer 2, .empty⟩], []⟩ := by decide +kernel
  have tells : ∀ t, (Sample.birthService.holding "genesis"
      [Sample.born, Sample.bornEarlier]).baseTable Sample.birthQuery = .ok t → t.Tells .long := by
    intro t again
    obtain rfl := Except.ok.inj (made.symm.trans again)
    unfold BaseTable.Tells
    decide +kernel
  exact ⟨same, asked, tells, content_of_reordered same asked tells⟩

end RegionalTables
