import RegionalTables.Cache.Database
import RegionalTables.Proofs.Service.Answer

/-! What a request writes. A failure leaves the cache as it was, whatever it held before, and an
answer writes what its outcome says: nothing, its rendering, or its rendering and its base table. -/
namespace RegionalTables.Service

variable {σ : Type} [Cache σ] {s : Service} {q : Query} {before : σ}

/-- What the cache is after a query, by what the query was given. -/
def Leaves (s : Service) (q : Query) (before : σ) : Except ServiceError Response × σ → Prop
  | (.error _, after) => after = before
  | (.ok r, after) =>
    match r.outcome with
    | .hit => after = before
    | .base => after = Cache.set before q.renderKey (concreteEntry q r)
    | .miss => ∃ t, s.baseTable q = .ok t ∧ r = s.present q t .miss ∧
      after = Cache.set (Cache.set before q.renderKey (concreteEntry q r)) q.dataKey (baseEntry q t)

/-- What an answer keeps is what its outcome says. -/
theorem Answered.leaves {a : Answer} (ways : s.Answered q before (.ok a)) :
    s.Leaves q before (.ok a.response, keep before a.entries) := by
  generalize whole : Except.ok a = result at ways
  cases ways with
  | hit _ =>
    obtain rfl := Except.ok.inj whole
    rfl
  | base _ _ =>
    obtain ⟨t, _, rfl⟩ := ofBase_eq_ok_iff.1 whole.symm
    rfl
  | miss _ _ =>
    obtain ⟨t, made, rfl⟩ := ofFacts_eq_ok_iff.1 whole.symm
    exact ⟨t, made, rfl, rfl⟩
  | unread _ => contradiction
  | unreadBase _ _ => contradiction

theorem leaves_respond (s : Service) (q : Query) (before : σ) :
    s.Leaves q before (s.respond q before) := by
  have ways := s.answered q before
  rw [respond]
  cases given : s.answer q before with
  | error e => rfl
  | ok a => exact (given ▸ ways).leaves

/-- An answer from a kept base table is written as it was given, with its query. -/
theorem Leaves.of_base {r : Response} {after : σ} (leaves : s.Leaves q before (.ok r, after))
    (base : r.outcome = .base) :
    after = Cache.set before q.renderKey (.concrete {
      content := r.content
      mimetype := r.mimetype
      cubes := r.cubes
      definition := q.definition
      source := some q.source }) := by
  rw [Leaves, base] at leaves
  exact leaves

/-- An answer from the facts is written with its query, and the table it shows as a blob. -/
theorem Leaves.of_miss {r : Response} {after : σ} (leaves : s.Leaves q before (.ok r, after))
    (miss : r.outcome = .miss) :
    ∃ t, s.baseTable q = .ok t ∧
      after = Cache.set
        (Cache.set before q.renderKey (.concrete {
          content := (s.presentation q).render t
          mimetype := q.format.mimetype
          cubes := t.cubes
          definition := q.definition
          source := some q.source }))
        q.dataKey (.base { data := t.blob, cubes := t.cubes, definition := q.dataDefinition }) := by
  rw [Leaves, miss] at leaves
  obtain ⟨t, made, rfl, written⟩ := leaves
  exact ⟨t, made, written⟩

/-- Only two keys are written, if what is found under a key changes only where it is set. -/
theorem Leaves.find?_eq {find? : σ → String → Option α} {after : Except ServiceError Response × σ}
    (leaves : s.Leaves q before after)
    (frame : ∀ cache k e key, key ≠ k → find? (Cache.set cache k e) key = find? cache key)
    {key : String} (render : key ≠ q.renderKey) (data : key ≠ q.dataKey) :
    find? after.2 key = find? before key := by
  match after with
  | (.error _, _) =>
    obtain rfl := leaves
    rfl
  | (.ok r, _) =>
    simp only [Leaves] at leaves
    cases outcome : r.outcome with
    | hit =>
      rw [outcome] at leaves
      rw [leaves]
    | base =>
      rw [outcome] at leaves
      rw [leaves, frame _ _ _ _ render]
    | miss =>
      rw [outcome] at leaves
      obtain ⟨t, _, _, rfl⟩ := leaves
      rw [frame _ _ _ _ data, frame _ _ _ _ render]

/-- A text is rejected, or answered as its query is. -/
theorem handle_eq (s : Service) (text : String) (before : σ) :
    (∃ r, s.handle text before = (.error (.rejected r), before)) ∨
      ∃ q, s.parse text = .ok q ∧ s.handle text before = s.respond q before := by
  rw [handle]
  cases s.parse text with
  | error r => exact .inl ⟨r, rfl⟩
  | ok q => exact .inr ⟨q, rfl, rfl⟩

theorem handle_find? (find? : σ → String → Option α) (s : Service) (text : String) (before : σ)
    (frame : ∀ cache k e key, key ≠ k → find? (Cache.set cache k e) key = find? cache key)
    (key : String) : find? (s.handle text before).2 key = find? before key ∨
      ∃ q, s.parse text = .ok q ∧ (key = q.renderKey ∨ key = q.dataKey) := by
  rcases s.handle_eq text before with ⟨r, given⟩ | ⟨q, parsed, given⟩
  · rw [given]
    exact .inl rfl
  · by_cases own : key = q.renderKey ∨ key = q.dataKey
    · exact .inr ⟨q, parsed, own⟩
    · rw [not_or] at own
      rw [given]
      exact .inl ((s.leaves_respond q before).find?_eq frame own.1 own.2)

/-- In any cache a rejected text changes nothing, and a query what `Leaves` says. In a cache in memory
and in a database, whatever they hold, what lies under a key is the same afterwards, unless the key is
one of the query's. -/
theorem handle_leaves (s : Service) (text : String) :
    (∀ (σ : Type) [Cache σ] (before : σ),
      (∃ r, s.handle text before = (.error (.rejected r), before)) ∨
        ∃ q, s.parse text = .ok q ∧ s.Leaves q before (s.handle text before)) ∧
      (∀ (before : MemoryCache) (key : String),
        (s.handle text before).2.entries.find? key = before.entries.find? key ∨
          ∃ q, s.parse text = .ok q ∧ (key = q.renderKey ∨ key = q.dataKey)) ∧
      ∀ (before : Database) (key : String),
        (s.handle text before).2.rows.find? key = before.rows.find? key ∨
          ∃ q, s.parse text = .ok q ∧ (key = q.renderKey ∨ key = q.dataKey) := by
  refine ⟨?_, ?_, ?_⟩
  · intro σ _ before
    rcases s.handle_eq text before with ⟨r, given⟩ | ⟨q, parsed, given⟩
    · exact .inl ⟨r, given⟩
    · rw [given]
      exact .inr ⟨q, parsed, s.leaves_respond q before⟩
  · intro before
    apply handle_find? fun (cache : MemoryCache) key => cache.entries.find? key
    intro cache k e key other
    exact SortedMap.find?_alter_other _ _ other
  · intro before
    apply handle_find? fun (cache : Database) key => cache.rows.find? key
    intro cache k e key other
    exact SortedMap.find?_alter_other _ _ other

end RegionalTables.Service
