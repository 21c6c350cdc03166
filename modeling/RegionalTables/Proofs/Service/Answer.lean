import RegionalTables.Proofs.Collections
import RegionalTables.Service.Basic

/-! How a query is answered: from a finished answer, from a base table, from the facts, or not at all
because the cache cannot be read. -/
namespace RegionalTables.Service

variable {σ : Type} [Cache σ] {s : Service} {q : Query} {cache : σ}

/-- No finished answer is found, at most an entry of the other kind. -/
def Unfinished (cache : σ) (q : Query) : Prop :=
  ∃ found, Cache.get cache q.renderKey = .ok found ∧ ∀ e, found ≠ some (.concrete e)

/-- No base table is found, at most an entry of the other kind. -/
def Unmade (cache : σ) (q : Query) : Prop :=
  ∃ found, Cache.get cache q.dataKey = .ok found ∧ ∀ e, found ≠ some (.base e)

/-- Every way to answer a query, with what is found in the cache on it. -/
inductive Answered (s : Service) (q : Query) (cache : σ) : Except ServiceError Answer → Prop
  | hit {e : ConcreteEntry} (found : Cache.get cache q.renderKey = .ok (some (.concrete e))) :
      Answered s q cache (.ok (ofConcrete e))
  | base {e : BaseEntry} (unfinished : Unfinished cache q)
      (found : Cache.get cache q.dataKey = .ok (some (.base e))) : Answered s q cache (s.ofBase q e)
  | miss (unfinished : Unfinished cache q) (unmade : Unmade cache q) :
      Answered s q cache (s.ofFacts q)
  | unread {e : CacheError} (failed : Cache.get cache q.renderKey = .error e) :
      Answered s q cache (.error (.cache e))
  | unreadBase {e : CacheError} (unfinished : Unfinished cache q)
      (failed : Cache.get cache q.dataKey = .error e) : Answered s q cache (.error (.cache e))

/-- An answer for which no finished one is found. -/
def unfinished (s : Service) (q : Query) (cache : σ) : Except ServiceError Answer := do
  match ← lookUp cache q.dataKey with
  | some (.base e) => s.ofBase q e
  | _ => s.ofFacts q

theorem answer_of_unfinished (none : Unfinished cache q) : s.answer q cache = s.unfinished q cache := by
  obtain ⟨found, got, other⟩ := none
  rw [answer, lookUp, got]
  rcases found with _ | e | e
  · rfl
  · exact absurd rfl (other e)
  · rfl

theorem answered_of_unfinished (none : Unfinished cache q) :
    s.Answered q cache (s.answer q cache) := by
  rw [answer_of_unfinished none, unfinished, lookUp]
  rcases kept : Cache.get cache q.dataKey with e | _ | e | e
  · exact .unreadBase none kept
  · exact .miss none ⟨_, kept, by simp⟩
  · exact .miss none ⟨_, kept, by simp⟩
  · exact .base none kept

theorem answered (s : Service) (q : Query) (cache : σ) : s.Answered q cache (s.answer q cache) := by
  rcases finished : Cache.get cache q.renderKey with e | _ | e | e
  · rw [answer, lookUp, finished]
    exact .unread finished
  · exact answered_of_unfinished ⟨_, finished, by simp⟩
  · rw [answer, lookUp, finished]
    exact .hit finished
  · exact answered_of_unfinished ⟨_, finished, by simp⟩

/-! What each way keeps. -/

theorem mapError_eq_ok_iff {x : Except ε α} {f : ε → δ} {a : α} :
    x.mapError f = .ok a ↔ x = .ok a := by
  cases x with
  | error e =>
    change Except.error (f e) = .ok a ↔ _
    simp
  | ok b =>
    change Except.ok b = .ok a ↔ _
    simp

theorem ofBase_eq_ok_iff {e : BaseEntry} {a : Answer} : s.ofBase q e = .ok a ↔
    ∃ t, BaseTable.ofBlob e.data = .ok t ∧
      ⟨s.present q t .base, [(q.renderKey, concreteEntry q (s.present q t .base))]⟩ = a := by
  simp only [ofBase, bind_eq_ok_iff, mapError_eq_ok_iff, pure, Except.pure, Except.ok.injEq]

theorem ofFacts_eq_ok_iff {a : Answer} : s.ofFacts q = .ok a ↔
    ∃ t, s.baseTable q = .ok t ∧ ⟨s.present q t .miss,
      [(q.renderKey, concreteEntry q (s.present q t .miss)), (q.dataKey, baseEntry q t)]⟩ = a := by
  simp only [ofFacts, bind_eq_ok_iff, mapError_eq_ok_iff, pure, Except.pure, Except.ok.injEq]

end RegionalTables.Service
