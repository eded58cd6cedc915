import Corpus.Proofs.Queue.Change
import Corpus.Proofs.Search.Deep
import Corpus.Proofs.Search.Limit
import Corpus.Proofs.Search.Statistics
import Corpus.Search.Prepared

/-! What a search answers depends on the documents of a table's index, and neither on its segments nor
on the changes that made it.  Only where it fails may depend on them. -/

namespace Corpus

open Number

def Plan.ofSearch (schema : Schema) (analyzers : Analyzers) (query : String) : Except Error Plan := do
  let parsed ← Query.parse allField query
  return (← Plan.ofQuery schema analyzers parsed).simplify

namespace Shards

variable (score : Scorer) (schema : Schema) (analyzers : Analyzers)

def search (s : Shards) (query : String) (start count : Nat) : Except Error (List Hit) := do
  let p ← Plan.ofSearch schema analyzers query
  if count = 0 then return [] else p.window score s start count

def searchCount (s : Shards) (query : String) : Except Error Nat := do
  (← Plan.ofSearch schema analyzers query).count score s

variable {score schema analyzers}

theorem search_of_error {query : String} {e : Error}
    (hp : Plan.ofSearch schema analyzers query = .error e) (s : Shards) (start count : Nat) :
    s.search score schema analyzers query start count = .error e := by
  rw [search, hp]
  rfl

theorem search_of_ok {query : String} {p : Plan} (hp : Plan.ofSearch schema analyzers query = .ok p)
    (s : Shards) (start count : Nat) :
    s.search score schema analyzers query start count =
      if count = 0 then .ok [] else p.window score s start count := by
  rw [search, hp]
  rfl

theorem searchCount_of_error {query : String} {e : Error}
    (hp : Plan.ofSearch schema analyzers query = .error e) (s : Shards) :
    s.searchCount score schema analyzers query = .error e := by
  rw [searchCount, hp]
  rfl

theorem searchCount_of_ok {query : String} {p : Plan}
    (hp : Plan.ofSearch schema analyzers query = .ok p) (s : Shards) :
    s.searchCount score schema analyzers query = p.count score s := by
  rw [searchCount, hp]
  rfl

section

variable {t u : String} {s r : Shards}

theorem Sound.documents_perm (hs : s.Sound t) (hr : r.Sound u)
    (h : ∀ id, s.document? t id = r.document? u id) : s.documents.Perm r.documents := by
  refine (List.perm_ext_iff_of_nodup hs.nodup_documents hr.nodup_documents).2 fun d => ?_
  rw [hs.mem_documents, hr.mem_documents, h]

theorem Sound.hitsAmong_perm (hs : s.Sound t) (hr : r.Sound u) (h : s.documents.Perm r.documents)
    (p : Plan) :
    (p.hitsAmong score s.statistics s.documents).Perm (p.hitsAmong score r.statistics r.documents) := by
  rw [statistics_eq hs.faithful, statistics_eq hr.faithful, Statistics.of_perm h]
  exact h.filterMap _

theorem window_congr (hs : s.Sound t) (hr : r.Sound u) (h : s.documents.Perm r.documents) {p : Plan}
    (hf : s.any (p.fails score s) = r.any (p.fails score r)) (start count : Nat) :
    p.window score s start count = p.window score r start count := by
  rw [Plan.window_eq hs.faithful, Plan.window_eq hr.faithful, hf,
    Ranking.sort_eq_of_perm (hs.hitsAmong_perm hr h p)]

theorem count_congr (hs : s.Sound t) (hr : r.Sound u) (h : s.documents.Perm r.documents) {p : Plan}
    (hf : s.any (p.fails score s) = r.any (p.fails score r)) :
    p.count score s = p.count score r := by
  rw [Plan.count_eq hs.faithful, Plan.count_eq hr.faithful, hf, (hs.hitsAmong_perm hr h p).length_eq]

theorem any_fails_congr (hs : s.Sound t) (hr : r.Sound u) (h : s.documents.Perm r.documents) {p : Plan}
    (hp : p.oversizedWithin 2 = false) :
    s.any (p.fails score s) = r.any (p.fails score r) := by
  have hne {s : Shards} {t : String} (hs : s.Sound t) : s ≠ [] := List.length_pos_iff.1 hs.nonempty
  rw [Bool.eq_iff_iff, Plan.any_fails_iff (hne hs) hs.faithful hp,
    Plan.any_fails_iff (hne hr) hr.faithful hp, statistics_eq hs.faithful, statistics_eq hr.faithful,
    Statistics.of_perm h]
  simp only [h.mem_iff]

end

variable {t u : String} {n m : Nat} {g h : List (Schema × Change)}

/-- Histories that leave the same documents answer alike wherever both answer. -/
theorem search_after
    (same : ∀ id, (after t analyzers n g).document? t id = (after u analyzers m h).document? u id)
    (query : String) :
    (∀ start count hits hits',
      (after t analyzers n g).search score schema analyzers query start count = .ok hits →
      (after u analyzers m h).search score schema analyzers query start count = .ok hits' →
      hits = hits') ∧
    (∀ k k', (after t analyzers n g).searchCount score schema analyzers query = .ok k →
      (after u analyzers m h).searchCount score schema analyzers query = .ok k' → k = k') ∧
    ((∀ p, Plan.ofSearch schema analyzers query = .ok p → p.oversizedWithin 2 = false) →
      (∀ start count, (after t analyzers n g).search score schema analyzers query start count =
        (after u analyzers m h).search score schema analyzers query start count) ∧
      (after t analyzers n g).searchCount score schema analyzers query =
        (after u analyzers m h).searchCount score schema analyzers query) := by
  have hs := sound_after t analyzers n g
  have hr := sound_after u analyzers m h
  have hd := hs.documents_perm hr same
  cases hp : Plan.ofSearch schema analyzers query with
  | error e =>
    simp only [search_of_error hp, searchCount_of_error hp]
    exact ⟨nofun, nofun, fun _ => ⟨fun _ _ => trivial, trivial⟩⟩
  | ok p =>
    simp only [search_of_ok hp, searchCount_of_ok hp]
    refine ⟨fun start count hits hits' h h' => ?_, fun k k' h h' => ?_, fun hw => ?_⟩
    · by_cases hc : count = 0
      · rw [if_pos hc] at h h'
        cases h
        cases h'
        rfl
      · rw [if_neg hc] at h h'
        have hf := (Plan.any_fails_of_window hs.faithful h).trans
          (Plan.any_fails_of_window hr.faithful h').symm
        exact Except.ok.inj (h.symm.trans ((window_congr hs hr hd hf start count).trans h'))
    · have hf := (Plan.any_fails_of_count hs.faithful h).trans
        (Plan.any_fails_of_count hr.faithful h').symm
      exact Except.ok.inj (h.symm.trans ((count_congr hs hr hd hf).trans h'))
    · refine ⟨fun start count => ?_, count_congr hs hr hd (any_fails_congr hs hr hd (hw p rfl))⟩
      rw [window_congr hs hr hd (any_fails_congr hs hr hd (hw p rfl)) start count]

def pair (table : String) : List (Schema × Change) :=
  [(.empty, .upsert ⟨"1", table, 0, .ofList [("x", .string "a")]⟩),
    (.empty, .upsert ⟨"2", table, 0, .ofList [("x", .string "b")]⟩)]

def mended : List (Schema × Change) :=
  pair "first" ++ [(.empty, .upsert ⟨"1", "first", 0, .ofList [("x", .string "c")]⟩),
    (.empty, .tombstone "2")]

theorem search_after_mended :
    (after "first" (.withDefault "keyword") 3 mended).search scorer .empty (.withDefault "keyword") "c"
        0 10 =
      (after "second" (.withDefault "keyword") 1
        [(.empty, .upsert ⟨"1", "second", 0, .ofList [("x", .string "c")]⟩)]).search scorer .empty
          (.withDefault "keyword") "c" 0 10 := by
  have hplan : (Plan.ofSearch .empty (.withDefault "keyword") "c").toOption.any
      (!·.oversizedWithin 2) := by decide +kernel
  refine ((search_after (fun id => ?_) "c").2.2 fun p hp => ?_).1 0 10
  · rw [document?_after, document?_after]
    by_cases h₁ : id = "1"
    · subst h₁
      rfl
    by_cases h₂ : id = "2"
    · subst h₂
      rfl
    simp only [mended, pair, List.cons_append, List.nil_append, List.foldl_cons, List.foldl_nil]
    rw [Change.leave_of_id?_ne rfl h₂, Change.leave_of_id?_ne rfl h₁, Change.leave_of_id?_ne rfl h₂,
      Change.leave_of_id?_ne rfl h₁, Change.leave_of_id?_ne rfl h₁]
  · rw [hp] at hplan
    exact Bool.not_eq_true' _ ▸ hplan

theorem ofSearch_deepQuery {n : Nat} (hn : 3 ≤ n) :
    Plan.ofSearch .empty (.withDefault "keyword") (String.ofList (deepQuery (marks n))) =
      .ok (.deep (String.ofList (marks n))) := by
  rw [Plan.ofSearch, parse_deepQuery allField hn]
  rfl

/-- Both documents stand in one segment of the one table, and in two of the other. -/
theorem search_pair_fails :
    (∀ id, (after "first" (.withDefault "keyword") 3 (pair "first")).document? "first" id =
      (after "second" (.withDefault "keyword") 3 (pair "second")).document? "second" id) ∧
    (∃ hits, (after "first" (.withDefault "keyword") 3 (pair "first")).search scorer .empty
      (.withDefault "keyword") (String.ofList (deepQuery (marks 12000))) 0 10 = .ok hits) ∧
    (after "second" (.withDefault "keyword") 3 (pair "second")).search scorer .empty
      (.withDefault "keyword") (String.ofList (deepQuery (marks 12000))) 0 10 =
        .error .oversizedGlob := by
  have hfails (shards : Shards) : (Plan.deep (String.ofList (marks 12000))).fails scorer shards =
      fun s => Plan.hasWord scorer shards "a" s && Plan.hasWord scorer shards "b" s := by
    refine funext (Plan.fails_deep scorer shards ?_)
    rw [String.toList_ofList]
    exact isOversized_marks (by decide)
  refine ⟨fun id => ?_, ?_, ?_⟩
  · rw [document?_after, document?_after]
    rfl
  · rw [search_of_ok (ofSearch_deepQuery (by decide)), if_neg (by decide),
      Plan.window_eq (sound_after ..).faithful, hfails, if_neg (by decide +kernel)]
    exact ⟨_, rfl⟩
  · rw [search_of_ok (ofSearch_deepQuery (by decide)), if_neg (by decide),
      Plan.window_eq (sound_after ..).faithful, hfails, if_pos (by decide +kernel)]

end Shards

end Corpus
