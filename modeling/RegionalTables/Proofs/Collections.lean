import RegionalTables.SortedMap
import RegionalTables.SortedSet

/-! What the program's steps do to a failing computation, to the entries of a map and to the
members of a set, stated once for all that follows. -/
namespace RegionalTables

instance decidableEqExcept [DecidableEq ε] [DecidableEq α] : DecidableEq (Except ε α)
  | .ok a, .ok b => decidable_of_iff (a = b) ⟨congrArg Except.ok, Except.ok.inj⟩
  | .error d, .error e => decidable_of_iff (d = e) ⟨congrArg Except.error, Except.error.inj⟩
  | .ok _, .error _ => .isFalse nofun
  | .error _, .ok _ => .isFalse nofun

/-- A chained computation succeeds through both of its steps. -/
theorem bind_eq_ok_iff {x : Except ε α} {f : α → Except ε β} {b : β} :
    x >>= f = .ok b ↔ ∃ a, x = .ok a ∧ f a = .ok b := by
  cases x with
  | error e => simp [bind, Except.bind]
  | ok a => simp [bind, Except.bind]

theorem forM_eq_ok_iff {l : List α} {f : α → Except ε Unit} :
    l.forM f = .ok () ↔ ∀ a ∈ l, f a = .ok () := by
  induction l with
  | nil => simp [List.forM, pure, Except.pure]
  | cons a l ih =>
    change (f a >>= fun _ => l.forM f) = .ok () ↔ _
    rw [bind_eq_ok_iff, List.forall_mem_cons]
    constructor
    · rintro ⟨_, first, rest⟩
      exact ⟨first, ih.1 rest⟩
    · rintro ⟨first, rest⟩
      exact ⟨(), first, ih.2 rest⟩

/-- The first step that fails is the failure of the whole. -/
theorem forM_first_error {before after : List α} {a : α} {f : α → Except ε Unit} {e : ε}
    (good : ∀ b ∈ before, f b = .ok ()) (bad : f a = .error e) :
    (before ++ a :: after).forM f = .error e := by
  induction before with
  | nil =>
    change (f a >>= fun _ => after.forM f) = .error e
    rw [bad]
    rfl
  | cons b before ih =>
    obtain ⟨first, rest⟩ := List.forall_mem_cons.1 good
    change (f b >>= fun _ => (before ++ a :: after).forM f) = .error e
    rw [first]
    exact ih rest

theorem forM_congr {l : List α} {f g : α → Except ε Unit} (same : ∀ a ∈ l, f a = g a) :
    l.forM f = l.forM g := by
  induction l with
  | nil => rfl
  | cons a l ih =>
    obtain ⟨first, rest⟩ := List.forall_mem_cons.1 same
    change (f a >>= fun _ => l.forM f) = (g a >>= fun _ => l.forM g)
    rw [first, ih rest]

theorem forM_append {l l' : List α} {f : α → Except ε Unit} :
    (l ++ l').forM f = (l.forM f >>= fun _ => l'.forM f) := by
  rw [List.forM_eq_forM, List.forM_append]

theorem forM_flatMap {l : List α} {g : α → List β} {f : β → Except ε Unit} :
    (l.flatMap g).forM f = l.forM fun a => (g a).forM f := by
  induction l with
  | nil => rfl
  | cons a l ih =>
    rw [List.flatMap_cons, forM_append, ih]
    rfl

/-- Where single steps fail, the first element that makes one fail is looked for. -/
theorem forM_eq_find? {l : List α} {bad : α → Bool} {e : α → ε} {f : α → Except ε Unit}
    (each : ∀ a, f a = if bad a then .error (e a) else .ok ()) :
    l.forM f = (l.find? bad).elim (.ok ()) fun a => .error (e a) := by
  cases found : l.find? bad with
  | none =>
    have good := List.find?_eq_none.1 found
    exact forM_eq_ok_iff.2 fun a member => by rw [each, if_neg (good a member)]
  | some a =>
    obtain ⟨fails, before, after, rfl, good⟩ := List.find?_eq_some_iff_append.1 found
    refine forM_first_error (fun b member => ?_) (by rw [each, if_pos fails])
    rw [each, if_neg (by simpa using good b member)]

/-- Either all elements have a property or there is a first that does not. -/
theorem forall_or_first (p : α → Prop) (l : List α) : (∀ a ∈ l, p a) ∨
    ∃ before a after, l = before ++ a :: after ∧ (∀ b ∈ before, p b) ∧ ¬ p a := by
  induction l with
  | nil => exact .inl (by simp)
  | cons b l ih =>
    by_cases here : p b
    · rcases ih with all | ⟨before, a, after, rfl, good, bad⟩
      · exact .inl (List.forall_mem_cons.2 ⟨here, all⟩)
      · exact .inr ⟨b :: before, a, after, rfl, List.forall_mem_cons.2 ⟨here, good⟩, bad⟩
    · exact .inr ⟨[], b, l, rfl, by simp, here⟩

/-- A list is computed if each of its elements is. -/
theorem exists_mapM_eq_ok_iff {l : List α} {f : α → Except ε β} :
    (∃ l', l.mapM f = .ok l') ↔ ∀ a ∈ l, ∃ b, f a = .ok b := by
  induction l with
  | nil => simp [pure, Except.pure]
  | cons a l ih =>
    simp only [List.mapM_cons, List.forall_mem_cons, ← ih, bind_eq_ok_iff]
    constructor
    · rintro ⟨_, b, first, l', rest, _⟩
      exact ⟨⟨b, first⟩, l', rest⟩
    · rintro ⟨⟨b, first⟩, l', rest⟩
      exact ⟨b :: l', b, first, l', rest, rfl⟩

theorem mapM_eq_ok_map {l : List α} {f : α → Except ε β} {g : α → β}
    (each : ∀ a ∈ l, f a = .ok (g a)) : l.mapM f = .ok (l.map g) := by
  induction l with
  | nil => rfl
  | cons a l ih =>
    obtain ⟨first, rest⟩ := List.forall_mem_cons.1 each
    rw [List.mapM_cons, first, ih rest]
    rfl

/-- A list is not computed if one of its elements is not; the first such decides about the failure. -/
theorem mapM_first_error {before after : List α} {a : α} {f : α → Except ε β} {e : ε}
    (good : ∀ b ∈ before, ∃ c, f b = .ok c) (bad : f a = .error e) :
    (before ++ a :: after).mapM f = .error e := by
  induction before with
  | nil =>
    rw [List.nil_append, List.mapM_cons, bad]
    rfl
  | cons b before ih =>
    obtain ⟨⟨c, first⟩, rest⟩ := List.forall_mem_cons.1 good
    rw [List.cons_append, List.mapM_cons, first, ih rest]
    rfl

theorem mem_iff_of_mapM_eq_ok {l : List α} {f : α → Except ε β} {l' : List β}
    (computed : l.mapM f = .ok l') (b : β) : b ∈ l' ↔ ∃ a ∈ l, f a = .ok b := by
  induction l generalizing l' with
  | nil =>
    obtain rfl := Except.ok.inj computed
    simp
  | cons a l ih =>
    rw [List.mapM_cons] at computed
    obtain ⟨c, first, computed⟩ := bind_eq_ok_iff.1 computed
    obtain ⟨others, rest, same⟩ := bind_eq_ok_iff.1 computed
    obtain rfl := Except.ok.inj same
    simp only [List.mem_cons, exists_eq_or_imp, ih rest, first, Except.ok.injEq]
    rw [eq_comm]

/-- Leaving out some elements moves none of the others past one another. -/
theorem idxOf_lt_of_filter [BEq α] [LawfulBEq α] {l : List α} {p : α → Bool} {a b : α}
    (pa : p a = true) (pb : p b = true) (before : (l.filter p).idxOf a < (l.filter p).idxOf b) :
    l.idxOf a < l.idxOf b := by
  induction l with
  | nil => simp at before
  | cons c l ih =>
    cases pc : p c with
    | true =>
      rw [List.filter_cons_of_pos pc] at before
      by_cases isA : c = a
      · subst isA
        by_cases isB : c = b
        · simp [isB] at before
        · simp [List.idxOf_cons, beq_false_of_ne isB]
      · by_cases isB : c = b
        · simp [List.idxOf_cons, isB] at before
        · simp only [List.idxOf_cons, beq_false_of_ne isA, beq_false_of_ne isB, cond_false] at before ⊢
          have := ih (by omega)
          omega
    | false =>
      rw [List.filter_cons_of_neg (by simp [pc])] at before
      have isA : c ≠ a := fun same => by simp [same, pa] at pc
      have isB : c ≠ b := fun same => by simp [same, pb] at pc
      simp only [List.idxOf_cons, beq_false_of_ne isA, beq_false_of_ne isB, cond_false]
      have := ih before
      omega

/-- What is left after erasing duplicates stands in the order of first appearance. -/
theorem pairwise_eraseDups [BEq α] [LawfulBEq α] (l : List α) :
    l.eraseDups.Pairwise fun a b => l.idxOf a < l.idxOf b := by
  match l with
  | [] => simp
  | a :: l =>
    have others : ∀ b ∈ (l.filter fun b => !b == a).eraseDups, b ≠ a := by
      intro b member same
      simp [same] at member
    rw [List.eraseDups_cons, List.pairwise_cons]
    constructor
    · intro b member
      have apart : a ≠ b := (others b member).symm
      simp [List.idxOf_cons, beq_false_of_ne apart]
    · refine (pairwise_eraseDups (l.filter fun b => !b == a)).imp_of_mem ?_
      intro b c mb mc before
      have apartB := others b mb
      have apartC := others c mc
      have := idxOf_lt_of_filter (l := l) (p := fun b => !b == a) (by simp [apartB])
        (by simp [apartC]) before
      simp only [List.idxOf_cons, beq_false_of_ne apartB.symm, beq_false_of_ne apartC.symm,
        cond_false]
      omega
termination_by l.length
decreasing_by exact Nat.lt_succ_of_le (List.length_filter_le _ l)

/-- Where at most one element is accepted, filtering and finding give the same. -/
theorem filter_eq_toList_find? {l : List α} {p : α → Bool}
    (once : l.Pairwise fun a b => ¬ (p a = true ∧ p b = true)) :
    l.filter p = (l.find? p).toList := by
  induction l with
  | nil => rfl
  | cons a l ih =>
    obtain ⟨first, rest⟩ := List.pairwise_cons.1 once
    cases accepted : p a with
    | true =>
      have others : l.filter p = [] :=
        List.filter_eq_nil_iff.2 fun b member both => first b member ⟨accepted, both⟩
      simp [accepted, others]
    | false => simp [accepted, ih rest]

theorem find?_eq_of_perm {l l' : List α} {p : α → Bool}
    (once : l.Pairwise fun a b => ¬ (p a = true ∧ p b = true)) (same : l.Perm l') :
    l.find? p = l'.find? p := by
  have once' : l'.Pairwise fun a b => ¬ (p a = true ∧ p b = true) :=
    same.pairwise once fun neither both => neither both.symm
  have found := same.filter p
  rw [filter_eq_toList_find? once, filter_eq_toList_find? once'] at found
  cases left : l.find? p with
  | none => cases right : l'.find? p <;> simp_all
  | some a => cases right : l'.find? p <;> simp_all

theorem flatMap_perm {l : List α} {f g : α → List β} (each : ∀ a ∈ l, (f a).Perm (g a)) :
    (l.flatMap f).Perm (l.flatMap g) := by
  induction l with
  | nil => exact .refl _
  | cons a l ih =>
    obtain ⟨first, rest⟩ := List.forall_mem_cons.1 each
    exact first.append (ih rest)

theorem SortedSet.nodup [Ord κ] [Std.TransOrd κ] (s : SortedSet κ) : s.toList.Nodup := by
  refine s.ascending.imp ?_
  rintro a _ before rfl
  simp at before

/-- Neither order nor number decide about a set. -/
theorem SortedSet.ofList_congr [Ord κ] [Std.TransOrd κ] [Std.LawfulEqOrd κ] {l l' : List κ}
    (same : ∀ a, a ∈ l ↔ a ∈ l') : ofList l = ofList l' := by
  apply ext_mem
  simpa using same

namespace SortedMap

variable {κ : Type u} {α : Type v} {β : Type w} [Ord κ]

theorem ascending_keys (m : SortedMap κ α) : m.keys.Pairwise fun a b => compare a b = .lt :=
  List.pairwise_map.2 m.ascending

theorem mem_keys_iff [Std.TransOrd κ] [Std.LawfulEqOrd κ] {m : SortedMap κ α} {k : κ} :
    k ∈ m.keys ↔ m.contains k = true := by
  simp only [keys, List.mem_map, Prod.exists, contains, Option.isSome_iff_exists,
    find?_eq_some_iff]
  constructor
  · rintro ⟨a, x, member, rfl⟩
    exact ⟨x, member⟩
  · rintro ⟨x, member⟩
    exact ⟨k, x, member, rfl⟩

theorem contains_iff {m : SortedMap κ α} {k : κ} :
    m.contains k = true ↔ ∃ x, m.find? k = some x := by
  rw [contains, Option.isSome_iff_exists]

theorem mem_entries_filterMap {m : SortedMap κ α} {f : κ → α → Option β} {k : κ} {y : β} :
    (k, y) ∈ (m.filterMap f).entries ↔ ∃ x, (k, x) ∈ m.entries ∧ f k x = some y := by
  simp only [filterMap, List.mem_filterMap, Option.map_eq_some_iff, Prod.exists, Prod.mk.injEq]
  constructor
  · rintro ⟨a, x, member, z, value, rfl, rfl⟩
    exact ⟨x, member, value⟩
  · rintro ⟨x, member, value⟩
    exact ⟨k, x, member, y, value, rfl, rfl⟩

theorem values_filterMap (m : SortedMap κ α) (f : κ → α → Option β) :
    (m.filterMap f).values = m.entries.filterMap fun e => f e.1 e.2 := by
  simp only [values, filterMap, List.map_filterMap, Option.map_map, Function.comp_def,
    Option.map_id']

theorem find?_filterMap [Std.TransOrd κ] [Std.LawfulEqOrd κ] (m : SortedMap κ α)
    (f : κ → α → Option β) (k : κ) :
    (m.filterMap f).find? k = (m.find? k).bind (f k) := by
  apply Option.ext
  intro y
  rw [find?_eq_some_iff, mem_entries_filterMap, Option.bind_eq_some_iff]
  simp only [find?_eq_some_iff]

/-- What is kept once is kept again as it is. -/
theorem filterMap_again [Std.TransOrd κ] [Std.LawfulEqOrd κ] {m : SortedMap κ α}
    {f : κ → α → Option α} (again : ∀ k x y, f k x = some y → f k y = some y) :
    (m.filterMap f).filterMap f = m.filterMap f := by
  apply ext_find?
  intro k
  rw [find?_filterMap, find?_filterMap]
  cases m.find? k with
  | none => rfl
  | some x =>
    cases kept : f k x with
    | none => simp [kept]
    | some y => simp [kept, again k x y kept]

theorem map_injective {f : α → β} (injective : ∀ x y, f x = f y → x = y) {m n : SortedMap κ α}
    (same : (m.map fun _ x => f x) = n.map fun _ x => f x) : m = n := by
  apply ext
  refine (List.map_inj_right ?_).1 (congrArg entries same)
  intro e e' member
  exact Prod.ext (Prod.mk.inj member).1 (injective _ _ (Prod.mk.inj member).2)

theorem entries_alter_ne_nil [Std.TransOrd κ] (m : SortedMap κ α) (k : κ) (f : Option α → α) :
    (m.alter k f).entries ≠ [] := by
  intro empty
  have found := find?_alter_self m k f
  rw [find?, empty] at found
  simp at found

theorem nodup_keys [Std.TransOrd κ] (m : SortedMap κ α) : m.keys.Nodup := by
  refine m.ascending_keys.imp ?_
  rintro a _ before rfl
  simp at before

theorem find?_erase [Std.TransOrd κ] [Std.LawfulEqOrd κ] [DecidableEq κ] (m : SortedMap κ α)
    (k j : κ) : (m.erase k).find? j = if j = k then none else m.find? j := by
  apply Option.ext
  intro x
  rw [find?_eq_some_iff, erase, List.mem_filter]
  by_cases same : j = k
  · simp [same]
  · have apart : compare k j ≠ .eq := fun bad => same (Std.LawfulEqCmp.compare_eq_iff_eq.1 bad).symm
    simp [same, apart, find?_eq_some_iff]

theorem findEntries_append (k : κ) (l r : List (κ × α)) :
    findEntries k (l ++ r) = (findEntries k l).or (findEntries k r) := by
  induction l with
  | nil => simp
  | cons e l ih =>
    obtain ⟨a, x⟩ := e
    rw [List.cons_append, findEntries, findEntries, ih]
    split <;> rfl

theorem find?_foldl_insert [Std.TransOrd κ] [Std.LawfulEqOrd κ] [DecidableEq κ]
    (l : List (κ × α)) (start : SortedMap κ α) (k : κ) :
    (l.foldl (fun m e => m.insert e.1 e.2) start).find? k =
      (findEntries k l.reverse).or (start.find? k) := by
  induction l generalizing start with
  | nil => simp
  | cons e rest ih =>
    obtain ⟨a, x⟩ := e
    rw [List.foldl_cons, ih, find?_insert, List.reverse_cons, findEntries_append, Option.or_assoc]
    by_cases same : k = a
    · simp [same, findEntries]
    · have apart : compare k a ≠ .eq := fun bad => same (Std.LawfulEqCmp.compare_eq_iff_eq.1 bad)
      simp [same, findEntries, apart]

/-- Of several entries under one key the last is found. -/
theorem find?_ofList [Std.TransOrd κ] [Std.LawfulEqOrd κ] [DecidableEq κ] (l : List (κ × α))
    (k : κ) : (ofList l).find? k = findEntries k l.reverse := by
  rw [ofList, find?_foldl_insert, find?_empty, Option.or_none]

/-- Under distinct keys it does not matter from which end one looks. -/
theorem findEntries_reverse [Std.TransOrd κ] [Std.LawfulEqOrd κ] {l : List (κ × α)}
    (ascending : l.Pairwise fun a b => compare a.1 b.1 = .lt) (k : κ) :
    findEntries k l.reverse = findEntries k l := by
  induction l with
  | nil => rfl
  | cons e rest ih =>
    obtain ⟨a, x⟩ := e
    obtain ⟨first, others⟩ := List.pairwise_cons.1 ascending
    rw [List.reverse_cons, findEntries_append, ih others]
    by_cases same : compare k a = .eq
    · have : k = a := Std.LawfulEqCmp.compare_eq_iff_eq.1 same
      simp [this, findEntries, findEntries_eq_none first]
    · simp [findEntries, same]

/-- Entries in ascending order are kept as they are. -/
theorem ofList_entries [Std.TransOrd κ] [Std.LawfulEqOrd κ] [DecidableEq κ] (m : SortedMap κ α) :
    ofList m.entries = m := by
  apply ext_find?
  intro k
  rw [find?_ofList, findEntries_reverse m.ascending, find?]

/-- What the entries give in key order, taken for one key alone, is what the entry of that key
gives. -/
theorem filter_flatMap_entries [Std.TransOrd κ] [Std.LawfulEqOrd κ] [BEq κ] [LawfulBEq κ]
    (m : SortedMap κ α) (g : κ → α → List β) (keyOf : β → κ)
    (own : ∀ k x, ∀ y ∈ g k x, keyOf y = k) (k : κ) :
    (m.entries.flatMap fun e => g e.1 e.2).filter (fun y => keyOf y == k) =
      ((m.find? k).map (g k)).getD [] := by
  have kept : ∀ x, (g k x).filter (fun y => keyOf y == k) = g k x := fun x =>
    List.filter_eq_self.2 fun y member => by simp [own k x y member]
  have dropped : ∀ a x, a ≠ k → (g a x).filter (fun y => keyOf y == k) = [] := fun a x apart =>
    List.filter_eq_nil_iff.2 fun y member => by simp [own a x y member, apart]
  obtain ⟨entries, ascending⟩ := m
  simp only [find?]
  induction entries with
  | nil => simp
  | cons e rest ih =>
    obtain ⟨a, x⟩ := e
    obtain ⟨first, others⟩ := List.pairwise_cons.1 ascending
    rw [List.flatMap_cons, List.filter_append, ih others]
    by_cases same : a = k
    · subst same
      simp [kept, findEntries, findEntries_eq_none first]
    · have apart : compare k a ≠ .eq := fun bad => same (Std.LawfulEqCmp.compare_eq_iff_eq.1 bad).symm
      simp [dropped a x same, findEntries, apart]

end SortedMap

end RegionalTables
