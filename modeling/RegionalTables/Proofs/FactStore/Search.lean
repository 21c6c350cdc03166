import RegionalTables.Proofs.FactStore.Lines
import RegionalTables.Proofs.Json.OneLine
import RegionalTables.Service.Basic

/-! Searching a file of facts. Its lines are read one after another, each with its number; a file that
lists facts is searched like the facts themselves, and the first bad line fails every table. -/
namespace RegionalTables.FactStore

open Json Text

def isWritten (line : List Char) : Bool := !line.all isBlank

/-- What a line says: nothing, a fact, or why it is no fact. -/
inductive Says (path : String) (number : Nat) (line : List Char) :
    Except StoreError (Option Fact) → Prop
  | nothing (blank : isWritten line = false) : Says path number line (.ok none)
  | fact {f : Fact} (written : isWritten line = true)
      (read : Document.read? line = some f.document) : Says path number line (.ok (some f))
  | notJson (written : isWritten line = true) (unread : Document.read? line = none) :
      Says path number line (.error (.invalid path number "invalid JSON"))
  | notAnObject {d : Document} (written : isWritten line = true)
      (read : Document.read? line = some d) (other : ∀ f : Fact, d ≠ f.document) :
      Says path number line (.error (.notAnObject path number))

/-- What the lines from number `n` on contribute to a search, in their order. -/
inductive Streamed (path : String) (filter : Filter) :
    Nat → List (List Char) → List (Except StoreError Fact) → Prop
  | done (n : Nat) : Streamed path filter n [] []
  | nothing {n : Nat} {line : List Char} {lines : List (List Char)}
      {out : List (Except StoreError Fact)} (told : Says path n line (.ok none))
      (rest : Streamed path filter (n + 1) lines out) : Streamed path filter n (line :: lines) out
  | accepted {n : Nat} {line : List Char} {lines : List (List Char)}
      {out : List (Except StoreError Fact)} {f : Fact} (told : Says path n line (.ok (some f)))
      (accepts : filter.accepts f = true) (rest : Streamed path filter (n + 1) lines out) :
      Streamed path filter n (line :: lines) (.ok f :: out)
  | refused {n : Nat} {line : List Char} {lines : List (List Char)}
      {out : List (Except StoreError Fact)} {f : Fact} (told : Says path n line (.ok (some f)))
      (refuses : filter.accepts f = false) (rest : Streamed path filter (n + 1) lines out) :
      Streamed path filter n (line :: lines) out
  | failed {n : Nat} {line : List Char} {lines : List (List Char)}
      {out : List (Except StoreError Fact)} {e : StoreError} (told : Says path n line (.error e))
      (rest : Streamed path filter (n + 1) lines out) :
      Streamed path filter n (line :: lines) (.error e :: out)

/-- The line holds something other than a fact. -/
def Bad (line : List Char) : Prop :=
  isWritten line = true ∧ ∀ f : Fact, Document.read? line ≠ some f.document

section

variable {path : String} {filter : Filter} {n : Nat} {line : List Char}

theorem readLine_of_blank (path : String) (n : Nat) (blank : isWritten line = false) :
    readLine path n (Utf8.encode line) = .ok none := by
  have all : line.all isBlank = true := by simpa [isWritten] using blank
  simp [readLine, Utf8.decode?_encode, all]

theorem readLine_of_written (path : String) (n : Nat) (written : isWritten line = true) :
    readLine path n (Utf8.encode line) =
      match Document.read? line with
      | none => .error (.invalid path n "invalid JSON")
      | some d =>
        match d.members? with
        | some f => .ok (some f)
        | none => .error (.notAnObject path n) := by
  have shown : ¬ line.all isBlank = true := by simpa [isWritten] using written
  rw [readLine, Utf8.decode?_encode]
  exact if_neg shown

/-- A line is read as what it says. -/
theorem says_iff {r : Except StoreError (Option Fact)} :
    Says path n line r ↔ readLine path n (Utf8.encode line) = r := by
  constructor
  · rintro (blank | ⟨written, read⟩ | ⟨written, unread⟩ | ⟨written, read, other⟩)
    · exact readLine_of_blank path n blank
    · rw [readLine_of_written path n written, read]
      simp only [Fact.document, Document.members?_object]
    · rw [readLine_of_written path n written, unread]
    · rw [readLine_of_written path n written, read]
      have compound : Document.members? _ = none :=
        Option.eq_none_iff_forall_ne_some.2 fun f members =>
          other f (Document.members?_eq_some_iff.1 members)
      simp only [compound]
  · rintro rfl
    cases written : isWritten line with
    | false =>
      rw [readLine_of_blank path n written]
      exact .nothing written
    | true =>
      rw [readLine_of_written path n written]
      cases read : Document.read? line with
      | none => exact .notJson written read
      | some d =>
        cases members : d.members? with
        | some f =>
          obtain rfl := Document.members?_eq_some_iff.1 members
          simp only [members]
          exact .fact written read
        | none =>
          simp only [members]
          refine .notAnObject written read fun f same => ?_
          rw [Document.members?_eq_some_iff.2 same] at members
          contradiction

/-- A line says one thing. -/
theorem Says.unique {r r' : Except StoreError (Option Fact)} (told : Says path n line r)
    (told' : Says path n line r') : r = r' :=
  (says_iff.1 told).symm.trans (says_iff.1 told')

theorem exists_told (path : String) (n : Nat) (line : List Char) : ∃ r, Says path n line r :=
  ⟨_, says_iff.2 rfl⟩

theorem bad_iff (path : String) (n : Nat) : Bad line ↔ ∃ e, Says path n line (.error e) := by
  constructor
  · rintro ⟨written, other⟩
    obtain ⟨r, told⟩ := exists_told path n line
    rcases told with blank | ⟨_, read⟩ | ⟨_, unread⟩ | ⟨_, read, compound⟩
    · rw [written] at blank
      contradiction
    · exact absurd read (other _)
    · exact ⟨_, .notJson written unread⟩
    · exact ⟨_, .notAnObject written read compound⟩
  · rintro ⟨e, _ | _ | ⟨written, unread⟩ | ⟨written, read, other⟩⟩
    · exact ⟨written, fun f read => by rw [unread] at read; contradiction⟩
    · refine ⟨written, fun f same => other f ?_⟩
      exact Option.some.inj (read.symm.trans same)

/-! The stream is what a search collects. -/

theorem exists_streamed (path : String) (filter : Filter) (n : Nat) (lines : List (List Char)) :
    ∃ out, Streamed path filter n lines out := by
  induction lines generalizing n with
  | nil => exact ⟨[], .done n⟩
  | cons line lines ih =>
    obtain ⟨out, rest⟩ := ih (n + 1)
    obtain ⟨e | (_ | f), told⟩ := exists_told path n line
    · exact ⟨_, .failed told rest⟩
    · exact ⟨_, .nothing told rest⟩
    · cases accepts : filter.accepts f with
      | true => exact ⟨_, .accepted told accepts rest⟩
      | false => exact ⟨_, .refused told accepts rest⟩

/-- What a search takes from a line that says `r`. -/
def taken (filter : Filter) : Except StoreError (Option Fact) → Option (Except StoreError Fact)
  | .ok (some f) => if filter.accepts f then some (.ok f) else none
  | .ok none => none
  | .error e => some (.error e)

theorem searchLine_of_told {r : Except StoreError (Option Fact)} (told : Says path (n + 1) line r) :
    searchLine path filter (Utf8.encode line, n) = taken filter r := by
  rw [searchLine, says_iff.1 told]
  rcases r with e | (_ | f) <;> rfl

theorem Streamed.collected {lines : List (List Char)} {out : List (Except StoreError Fact)}
    (stream : Streamed path filter (n + 1) lines out) :
    ((lines.map Utf8.encode).zipIdx n).filterMap (searchLine path filter) = out := by
  generalize number : n + 1 = first at stream
  induction stream generalizing n with
  | done => rfl
  | nothing told _ ih =>
    subst number
    rw [List.map_cons, List.zipIdx_cons, List.filterMap_cons_none (searchLine_of_told told), ih rfl]
  | @accepted _ _ _ _ f told accepts _ ih =>
    subst number
    have here : taken filter (.ok (some f)) = some (.ok f) := if_pos accepts
    rw [List.map_cons, List.zipIdx_cons,
      List.filterMap_cons_some ((searchLine_of_told told).trans here), ih rfl]
  | @refused _ _ _ _ f told refuses _ ih =>
    subst number
    have here : taken filter (.ok (some f)) = none := if_neg (by simp [refuses])
    rw [List.map_cons, List.zipIdx_cons,
      List.filterMap_cons_none ((searchLine_of_told told).trans here), ih rfl]
  | failed told _ ih =>
    subst number
    rw [List.map_cons, List.zipIdx_cons, List.filterMap_cons_some (searchLine_of_told told), ih rfl]

/-- A file is searched line by line, and there is one stream of its lines. -/
theorem search_encode (index path : String) (filter : Filter) (cs : List Char) :
    ∃ out, search ⟨index, .file path (.ok (Utf8.encode cs))⟩ filter = .ok out ∧
      ∀ out', Streamed path filter 1 (Text.lines cs) out' ↔ out' = out := by
  obtain ⟨out, stream⟩ := exists_streamed path filter 1 (Text.lines cs)
  refine ⟨out, ?_, fun out' => ⟨fun stream' => ?_, ?_⟩⟩
  · have collected : search ⟨index, .file path (.ok (Utf8.encode cs))⟩ filter =
        .ok ((lines (Utf8.encode cs)).zipIdx.filterMap (searchLine path filter)) := rfl
    rw [collected, lines_encode, stream.collected]
  · exact stream'.collected.symm.trans stream.collected
  · rintro rfl
    exact stream

/-! A file that lists facts. -/

/-- The text of a file with these lines, the last of which may be ended or not. -/
def fileOf (lines : List (List Char)) (ended : Bool) : List Char :=
  ['\n'].intercalate lines ++ if ended then ['\n'] else []

theorem isWritten_eq_false_iff : isWritten line = false ↔ ∀ c ∈ line, isBlank c = true := by
  simp [isWritten]

theorem filter_eq_nil_of_blank {pieces : List (List Char)}
    (blank : ∀ piece ∈ pieces, ∀ c ∈ piece, isBlank c = true) : pieces.filter isWritten = [] :=
  List.filter_eq_nil_iff.2 fun piece member => by
    rw [isWritten_eq_false_iff.2 (blank piece member)]
    exact Bool.false_ne_true

theorem withoutReturn_of_uncontrolled (plain : Uncontrolled line) : withoutReturn '\r' line = line :=
  if_neg fun last => plain.not_mem (c := '\r') (by decide) (List.mem_of_getLast? last)

/-- Ending lines changes none that are written, if these have no control characters. -/
theorem filter_endLines {pieces : List (List Char)}
    (plain : ∀ piece ∈ pieces, isWritten piece = true → Uncontrolled piece) :
    (endLines '\r' pieces).filter isWritten = pieces.filter isWritten := by
  induction pieces with
  | nil => rfl
  | cons piece pieces ih =>
    obtain ⟨first, rest⟩ := List.forall_mem_cons.1 plain
    cases pieces with
    | nil => cases piece <;> rfl
    | cons next pieces =>
      rw [endLines_cons '\r' piece (List.cons_ne_nil next pieces)]
      cases written : isWritten piece with
      | true =>
        rw [withoutReturn_of_uncontrolled (first written), List.filter_cons_of_pos written,
          List.filter_cons_of_pos written, ih rest]
      | false =>
        have blank := isWritten_eq_false_iff.1 written
        have still : isWritten (withoutReturn '\r' piece) = false := by
          refine isWritten_eq_false_iff.2 fun c member => blank c ?_
          unfold withoutReturn at member
          split at member
          · exact List.dropLast_subset piece member
          · exact member
        rw [List.filter_cons_of_neg (by simp [still]), List.filter_cons_of_neg (by simp [written]),
          ih rest]

/-- Cutting the file changes no written line, if these have no control characters. -/
theorem filter_split {lines : List (List Char)} (ended : Bool)
    (plain : ∀ line ∈ lines, isWritten line = true → Uncontrolled line) :
    (split '\n' (fileOf lines ended)).filter isWritten = lines.filter isWritten := by
  have joined : (split '\n' (['\n'].intercalate lines)).filter isWritten = lines.filter isWritten := by
    cases lines with
    | nil => rfl
    | cons line lines =>
      rw [split_intercalate (List.cons_ne_nil line lines)]
      generalize line :: lines = lines at plain
      induction lines with
      | nil => rfl
      | cons line lines ih =>
        obtain ⟨first, rest⟩ := List.forall_mem_cons.1 plain
        rw [List.flatMap_cons, List.filter_append, ih rest]
        cases written : isWritten line with
        | true =>
          rw [split_of_not_mem ((first written).not_mem (by decide)), List.filter_cons_of_pos written,
            List.filter_cons_of_pos written]
          rfl
        | false =>
          have blank := isWritten_eq_false_iff.1 written
          rw [List.filter_cons_of_neg (by simp [written]), filter_eq_nil_of_blank, List.nil_append]
          intro piece member c inside
          exact blank c (mem_of_mem_split member inside)
  cases ended with
  | false => simpa [fileOf] using joined
  | true =>
    have cut : split '\n' (fileOf lines true) =
        split '\n' (['\n'].intercalate lines) ++ [[]] := split_append_cons _ []
    rw [cut, List.filter_append, joined]
    simp [isWritten]

/-- Each written line of the file is one of the lines it was made of. -/
theorem filter_lines {lines : List (List Char)} (ended : Bool)
    (plain : ∀ line ∈ lines, isWritten line = true → Uncontrolled line) :
    (Text.lines (fileOf lines ended)).filter isWritten = lines.filter isWritten := by
  have pieces := filter_split ended plain
  rw [Text.lines, filter_endLines, pieces]
  intro piece member written
  have kept : piece ∈ lines.filter isWritten := pieces ▸ List.mem_filter.2 ⟨member, written⟩
  exact plain piece (List.mem_filter.1 kept).1 written

theorem streamed_of_facts {facts : List Fact} {lines : List (List Char)}
    (fits : ∀ f ∈ facts, (Tree.ofValue f.document.value).depth ≤ depthLimit)
    (listed : lines.filter isWritten = facts.map (·.document.value.chars)) (n : Nat) :
    Streamed path filter n lines ((facts.filter filter.accepts).map .ok) := by
  induction lines generalizing facts n with
  | nil =>
    obtain rfl : facts = [] := by simpa using listed
    exact .done n
  | cons line lines ih =>
    cases written : isWritten line with
    | false =>
      rw [List.filter_cons_of_neg (by simp [written])] at listed
      exact .nothing (.nothing written) (ih fits listed (n + 1))
    | true =>
      rw [List.filter_cons_of_pos written] at listed
      cases facts with
      | nil => contradiction
      | cons f facts =>
        obtain ⟨same, listed⟩ := List.cons.inj listed
        obtain ⟨first, others⟩ := List.forall_mem_cons.1 fits
        have read : Document.read? line = some f.document := by
          rw [same]
          exact Document.read?_chars first
        have told : Says path n line (.ok (some f)) := .fact written read
        have rest := ih others listed (n + 1)
        cases accepts : filter.accepts f with
        | true =>
          rw [List.filter_cons_of_pos (p := filter.accepts) accepts]
          exact .accepted told accepts rest
        | false =>
          rw [List.filter_cons_of_neg (p := filter.accepts) (by simp [accepts])]
          exact .refused told accepts rest

/-! The first bad line. -/

/-- Before the first bad line a stream holds facts only, and then the error of this line. -/
theorem Streamed.first_error {before after : List (List Char)} {out : List (Except StoreError Fact)}
    {e : StoreError} (stream : Streamed path filter n (before ++ line :: after) out)
    (good : ∀ earlier ∈ before, ¬ Bad earlier) (told : Says path (n + before.length) line (.error e)) :
    ∃ facts : List Fact, ∃ rest, out = facts.map .ok ++ .error e :: rest := by
  induction before generalizing n out with
  | nil =>
    rcases stream with _ | ⟨other, _⟩ | ⟨other, _, _⟩ | ⟨other, _, _⟩ | ⟨other, _⟩
    · exact absurd (other.unique told) (by simp)
    · exact absurd (other.unique told) (by simp)
    · exact absurd (other.unique told) (by simp)
    · obtain rfl := Except.error.inj (other.unique told)
      exact ⟨[], _, rfl⟩
  | cons earlier before ih =>
    obtain ⟨here, good⟩ := List.forall_mem_cons.1 good
    have number : n + (earlier :: before).length = n + 1 + before.length := by
      rw [List.length_cons]
      omega
    rw [number] at told
    rcases stream with _ | ⟨_, rest⟩ | @⟨_, _, _, _, f, _, _, rest⟩ | ⟨_, _, rest⟩ | ⟨other, _⟩
    · exact ih rest good told
    · obtain ⟨facts, rest, same⟩ := ih rest good told
      exact ⟨f :: facts, rest, congrArg (.ok f :: ·) same⟩
    · exact ih rest good told
    · exact absurd ((bad_iff path n).2 ⟨_, other⟩) here

/-- A table made from a file fails with the error of its first bad line. -/
theorem baseTable_of_first_bad {cs : List Char} {before after : List (List Char)} {e : StoreError}
    (cut : Text.lines cs = before ++ line :: after) (good : ∀ earlier ∈ before, ¬ Bad earlier)
    (told : Says path (before.length + 1) line (.error e)) (catalog : Catalog) (names : RegionNames)
    (index : String) (q : Query) :
    (⟨catalog, names, ⟨index, .file path (.ok (Utf8.encode cs))⟩⟩ : Service).baseTable q =
      .error e := by
  obtain ⟨out, found, only⟩ := search_encode index path (Filter.ofQuery catalog q) cs
  have stream := (only out).2 rfl
  rw [cut] at stream
  rw [Nat.add_comm] at told
  obtain ⟨facts, rest, rfl⟩ := stream.first_error good told
  have failed : FactStore.facts ⟨index, .file path (.ok (Utf8.encode cs))⟩
      (Filter.ofQuery catalog q) = .error e := by
    rw [FactStore.facts, found]
    refine mapM_first_error (fun read own => ?_) rfl
    obtain ⟨f, _, rfl⟩ := List.mem_map.1 own
    exact ⟨f, rfl⟩
  rw [Service.baseTable, Service.facts, failed]
  rfl

end

/-- A file that lists facts is searched like these facts. The stream of a file is what its lines say,
in their order, and its first bad line fails the base table of every query. -/
theorem file_searched_like_memory (index path : String) (filter : Filter) :
    (∀ (facts : List Fact) (lines : List (List Char)) (ended : Bool),
      (∀ f ∈ facts, (Tree.ofValue f.document.value).depth ≤ depthLimit) →
      lines.filter isWritten = facts.map (·.document.value.chars) →
        search ⟨index, .file path (.ok (Utf8.encode (fileOf lines ended)))⟩ filter =
          search ⟨index, .memory facts⟩ filter) ∧
    (∀ cs, ∃ out, search ⟨index, .file path (.ok (Utf8.encode cs))⟩ filter = .ok out ∧
      ∀ out', Streamed path filter 1 (Text.lines cs) out' ↔ out' = out) ∧
    ∀ cs, (∃ line ∈ Text.lines cs, Bad line) →
      ∃ before line after e, Text.lines cs = before ++ line :: after ∧
        (∀ earlier ∈ before, ¬ Bad earlier) ∧ Bad line ∧
        Says path (before.length + 1) line (.error e) ∧
        ∀ (catalog : Catalog) (names : RegionNames) (q : Query),
          (⟨catalog, names, ⟨index, .file path (.ok (Utf8.encode cs))⟩⟩ : Service).baseTable q =
            .error e := by
  refine ⟨fun facts lines ended fits listed => ?_, search_encode index path filter, ?_⟩
  · obtain ⟨out, found, only⟩ := search_encode index path filter (fileOf lines ended)
    have plain : ∀ line ∈ lines, isWritten line = true → Uncontrolled line := by
      intro line member written
      have kept : line ∈ lines.filter isWritten := List.mem_filter.2 ⟨member, written⟩
      rw [listed] at kept
      obtain ⟨f, _, rfl⟩ := List.mem_map.1 kept
      exact f.document.uncontrolled_chars
    have stream : Streamed path filter 1 (Text.lines (fileOf lines ended))
        ((facts.filter filter.accepts).map .ok) :=
      streamed_of_facts fits ((filter_lines ended plain).trans listed) 1
    rw [found, ← (only _).1 stream]
    rfl
  · rintro cs ⟨damaged, member, bad⟩
    rcases forall_or_first (fun line => ¬ Bad line) (Text.lines cs) with
      good | ⟨before, line, after, cut, good, first⟩
    · exact absurd bad (good damaged member)
    · have bad : Bad line := Classical.not_not.1 first
      obtain ⟨e, told⟩ := (bad_iff path (before.length + 1)).1 bad
      exact ⟨before, line, after, e, cut, good, bad, told, fun catalog names q =>
        baseTable_of_first_bad cut good told catalog names index q⟩

end RegionalTables.FactStore

namespace RegionalTables

open Json

namespace Sample

def counted : Fact := .ofList [("region_id", .string "11"), ("value", .byte 3)]

def remarked : Fact := .ofList [("remark", .string "geändert\n")]

/-- Two facts between lines that are empty or blank. -/
def listing : List (List Char) :=
  [[], counted.document.value.chars, [' ', '\t'], [], remarked.document.value.chars]

def listOfOne : Document := .array [.byte 1]

/-- The third line is no object, the fourth is no JSON. -/
def damaged : List Char :=
  counted.document.value.chars ++ ['\r', '\n', '\n'] ++ listOfOne.value.chars ++ ['\n', '\x7b']

end Sample

theorem FactStore.file_of_samples :
    (∀ f ∈ [Sample.counted, Sample.remarked],
      (Tree.ofValue f.document.value).depth ≤ depthLimit) ∧
    Sample.listing.filter isWritten =
      [Sample.counted, Sample.remarked].map (·.document.value.chars) ∧
    (∃ line ∈ Text.lines Sample.damaged, Bad line) ∧
    ∀ filter : Filter,
      search ⟨"genesis", .file "facts.ndjson" (.ok (Text.Utf8.encode (fileOf Sample.listing false)))⟩
        filter = .ok (([Sample.counted, Sample.remarked].filter filter.accepts).map .ok) ∧
      ∀ (catalog : Catalog) (names : RegionNames) (q : Query),
        (⟨catalog, names, ⟨"genesis", .file "facts.ndjson"
          (.ok (Text.Utf8.encode Sample.damaged))⟩⟩ : Service).baseTable q =
            .error (.notAnObject "facts.ndjson" 3) := by
  have fits : ∀ f ∈ [Sample.counted, Sample.remarked],
      (Tree.ofValue f.document.value).depth ≤ depthLimit := by decide
  have listed : Sample.listing.filter isWritten =
      [Sample.counted, Sample.remarked].map (·.document.value.chars) := by decide +kernel
  have lines : Text.lines Sample.damaged =
      [Sample.counted.document.value.chars, [], Sample.listOfOne.value.chars, ['\x7b']] := by
    decide +kernel
  have fact : ∀ path n, Says path n Sample.counted.document.value.chars (.ok (some Sample.counted)) :=
    fun path n => .fact (by decide +kernel) (Document.read?_chars (by decide))
  have empty : ∀ path n, Says path n [] (.ok none) := fun path n => .nothing rfl
  have list : ∀ path n, Says path n Sample.listOfOne.value.chars (.error (.notAnObject path n)) :=
    fun path n => .notAnObject (by decide +kernel) (Document.read?_chars (by decide)) fun f same => by
      have values := congrArg Document.value same
      simp [Sample.listOfOne, Document.array, Fact.document, Document.object] at values
  have good : ∀ line r, (∀ path n, Says path n line (.ok r)) → ¬ Bad line := by
    intro line r told bad
    obtain ⟨e, failed⟩ := (bad_iff "" 0).1 bad
    exact absurd (failed.unique (told "" 0)) (by simp)
  have damaged : ∃ line ∈ Text.lines Sample.damaged, Bad line :=
    ⟨_, by rw [lines]; simp, (bad_iff "" 0).2 ⟨_, list "" 0⟩⟩
  refine ⟨fits, listed, damaged, fun filter => ?_⟩
  obtain ⟨alike, _, fails⟩ := file_searched_like_memory "genesis" "facts.ndjson" filter
  obtain ⟨before, line, after, e, cut, earlier, bad, told, failed⟩ := fails Sample.damaged damaged
  refine ⟨alike _ _ false fits listed, ?_⟩
  rw [lines] at cut
  rcases before with _ | ⟨first, _ | ⟨second, _ | ⟨third, before⟩⟩⟩
  · obtain ⟨rfl, _⟩ := List.cons.inj cut
    exact absurd bad (good _ _ fact)
  · obtain ⟨_, cut⟩ := List.cons.inj cut
    obtain ⟨rfl, _⟩ := List.cons.inj cut
    exact absurd bad (good _ _ empty)
  · obtain ⟨_, cut⟩ := List.cons.inj cut
    obtain ⟨_, cut⟩ := List.cons.inj cut
    obtain ⟨rfl, _⟩ := List.cons.inj cut
    obtain rfl := Except.error.inj (told.unique (list "facts.ndjson" 3))
    exact failed
  · obtain ⟨_, cut⟩ := List.cons.inj cut
    obtain ⟨_, cut⟩ := List.cons.inj cut
    obtain ⟨rfl, _⟩ := List.cons.inj cut
    exact absurd ((bad_iff "" 0).2 ⟨_, list "" 0⟩) (earlier _ (by simp))

end RegionalTables
