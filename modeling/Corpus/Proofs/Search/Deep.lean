import Corpus.Proofs.Query.Reading
import Corpus.Proofs.Search.Window

/-! Queries that prohibit what prohibits an oversized pattern.  Only a segment with a document for all
that stands before the pattern fails on it. -/

namespace Corpus

open Query Text

def marks (n : Nat) : List Char := List.replicate n '?'

theorem marks_eq {n : Nat} (hn : 3 ≤ n) : ∃ s, marks n = '?' :: '?' :: '?' :: s := by
  obtain ⟨k, rfl⟩ := Nat.exists_eq_add_of_le' hn
  exact ⟨List.replicate k '?', rfl⟩

theorem isOversized_marks {n : Nat} (hn : 10486 ≤ n) : isOversized (marks n) := by
  have h : Direction.backwards.room (marks n) = 128 + n * 1000 := by
    rw [Direction.room, marks, List.map_replicate, total_eq_sum, List.sum_replicate_nat]
    rfl
  rw [isOversized, h, roomLimit]
  simp only [Bool.or_eq_true, decide_eq_true_eq]
  omega

theorem pattern?_marks {n : Nat} (hn : 3 ≤ n) (s : List Char) :
    pattern? false (marks n ++ ')' :: s) =
      some (.wildcard (String.ofList (marks n)), ')' :: s) := by
  obtain ⟨t, ht⟩ := marks_eq hn
  have hw : ofWord (marks n) = .wildcard (String.ofList (marks n)) := by
    rw [ht]
    rfl
  have hr : pattern? false (marks n ++ ')' :: s) = word? false (marks n ++ ')' :: s) := by
    rw [ht]
    rfl
  rw [← hw, hr]
  refine word?_append (fun c hc => ?_) ?_ ?_ Bool.false_ne_true
  · rw [List.eq_of_mem_replicate hc]
    decide
  · simp [ht]
  · simp [isOperator, ht]

theorem factor_marks (d : String) {n : Nat} (hn : 3 ≤ n) (s : List Char) :
    (factor d (marks n ++ ')' :: s)).outcome =
      .value (.field d (.wildcard (String.ofList (marks n))) none) (')' :: s) := by
  obtain ⟨t, ht⟩ := marks_eq hn
  have hf : fielded? d (marks n ++ ')' :: s) = none := by
    rw [ht]
    rfl
  have hs : simple? d (marks n ++ ')' :: s) =
      some (.field d (.wildcard (String.ofList (marks n))) none, ')' :: s) := by
    rw [simple?, hf, pattern?_marks hn]
    rfl
  have ho : strip? ['('] (marks n ++ ')' :: s) = none := by
    rw [ht]
    rfl
  have ha : strip? ['*', ':', '*'] (marks n ++ ')' :: s) = none := by
    rw [ht]
    rfl
  rw [factor_outcome, primary_outcome, ho, ha, hs]
  rfl

theorem factor_letter {c : Char} (hc : c = 'a' ∨ c = 'b') (d : String) (s : List Char) :
    (factor d (c :: ' ' :: s)).outcome =
      .value (.field d (.term (String.ofList [c])) none) (' ' :: s) := by
  obtain rfl | rfl := hc
  · rw [factor_outcome, primary_outcome]
    rfl
  · rw [factor_outcome, primary_outcome]
    rfl

def deepQuery (glob : List Char) : List Char :=
  '+' :: 'a' :: ' ' :: '-' :: '(' :: '+' :: 'b' :: ' ' :: '-' :: (glob ++ [')'])

theorem parse_deepQuery (d : String) {n : Nat} (hn : 3 ≤ n) :
    Query.parse d (String.ofList (deepQuery (marks n))) =
      .ok (.bool [.field d (.term "a") none] []
        [.bool [.field d (.term "b") none] []
          [.field d (.wildcard (String.ofList (marks n))) none] none] none) := by
  have hglob := factor_marks d hn []
  generalize marks n = glob at hglob ⊢
  have hinner : (disjunction d ('+' :: 'b' :: ' ' :: '-' :: (glob ++ [')']))).outcome = _ :=
    disjunction_pair (conjunction_of_clause (clause_plus (factor_letter (.inr rfl) d _)) rfl)
      (conjunction_of_clause (clause_minus hglob) rfl) conjunction_close
  have houter : (disjunction d (deepQuery glob)).outcome = _ :=
    disjunction_pair (conjunction_of_clause (clause_plus (factor_letter (.inl rfl) d _)) rfl)
      (conjunction_of_clause (clause_minus (factor_parenthesis hinner)) rfl) conjunction_nil
  have hs : skipSpace (deepQuery glob) = deepQuery glob := rfl
  rw [parse_eq, String.toList_ofList, hs, houter]
  exact if_neg (trim_ne_nil (by decide))

namespace Plan

def deep (glob : String) : Plan :=
  .bool [.leaf (.term allField "a") 1] []
    [.bool [.leaf (.term allField "b") 1] [] [.leaf (.wildcard allField glob) 1] 1] 1

def hasWord (score : Scorer) (shards : Shards) (word : String) (s : Segment) : Bool :=
  !(matched s.live [lookup score shards s 1 (.term allField word)] [] []).isEmpty

theorem fails_deep (score : Scorer) (shards : Shards) {glob : String} (hg : isOversized glob.toList)
    (s : Segment) :
    (deep glob).fails score shards s =
      (hasWord score shards "a" s && hasWord score shards "b" s) := by
  simp [fails, deep, hasWord, hasOversized, anyOversized, meetsOversized, meetsInAny, meetsWhileLeft,
    evaluateEach, evaluate, hg]

end Plan

end Corpus
