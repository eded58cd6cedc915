import Corpus.Proofs.Query.Enclosed
import Corpus.Proofs.Text.Blank

/-! Texts that are one clause, and NOT in front of them.  The sign of a clause is lost behind a further NOT,
but kept in parentheses. -/

namespace Corpus

namespace Query

open Text Outcome

variable {d text : String} {c : Clause} {q : Query}

def IsClause (d text : String) (c : Clause) : Prop :=
  ∃ rest, (clause d text.toList).outcome = .value c rest ∧ skipSpace rest = []

theorem clause_blank {s : List Char} (h : ∀ c ∈ s, isBlank c) (d : String) :
    (clause d s).outcome = .miss := by
  refine clause_idle ((Option.all_eq_true ..).2 fun c hc => ?_) d
  have hblank : isBlank c := h c ((List.dropWhile_sublist _).subset (List.mem_of_head? hc))
  have hne {c' : Char} (hc' : isBlank c' = false) : c ≠ c' := by
    rintro rfl
    exact Bool.false_ne_true (hc'.symm.trans hblank)
  have hopens : opensPattern c = false := by
    simp [opensPattern, hne (show isBlank '"' = false from rfl), hne (show isBlank '[' = false from rfl),
      hne (show isBlank '\x7b' = false from rfl)]
  simp [isTermChar, hblank, hopens, hne (show isBlank '(' = false from rfl)]

theorem IsClause.trim_ne_nil (h : IsClause d text c) : trim text.toList ≠ [] := by
  intro ht
  obtain ⟨rest, hc, -⟩ := h
  rw [clause_blank (isBlank_of_trim_eq_nil ht)] at hc
  cases hc

theorem IsClause.parse (h : IsClause d text c) : parse d text = .ok (Clause.combine [c]) := by
  have htrim := h.trim_ne_nil
  obtain ⟨rest, hc, hrest⟩ := h
  rw [← clause_skipSpace] at hc
  have hconjunction := conjunction_of_clause hc (by rw [hrest]; rfl)
  have halternatives : (alternatives d rest).outcome = .value [] rest :=
    alternatives_of_miss (by rw [hrest]; exact conjunction_nil)
  rw [parse_eq, if_neg htrim, disjunction_outcome, hconjunction, andThen, halternatives]
  exact if_pos hrest

theorem IsClause.not (h : IsClause d text c) : IsClause d ("NOT " ++ text) ⟨.mustNot, c.query⟩ := by
  obtain ⟨rest, hc, hrest⟩ := h
  have hspace : (clause d (' ' :: text.toList)).outcome = .value c rest := by
    rw [← clause_skipSpace] at hc ⊢
    exact hc
  refine ⟨rest, ?_, hrest⟩
  rw [show ("NOT " ++ text).toList = ['N', 'O', 'T'] ++ ' ' :: text.toList by simp]
  exact clause_not hspace rfl

theorem isClause_enclosed (ht : trim text.toList ≠ []) (h : Query.parse d text = .ok q) :
    IsClause d ("(" ++ text ++ ")") ⟨.should, q⟩ := by
  refine ⟨[], ?_, rfl⟩
  rw [show ("(" ++ text ++ ")").toList = '(' :: (text.toList ++ [')']) by simp]
  exact clause_enclosed ht h (by simp)

def nots : Nat → String → String
  | 0, text => text
  | n + 1, text => "NOT " ++ nots n text

theorem isClause_nots (h : IsClause d text c) (n : Nat) :
    IsClause d (nots (n + 1) text) ⟨.mustNot, c.query⟩ := by
  induction n with
  | zero => exact h.not
  | succ n ih => exact ih.not

def negated : Nat → String → String
  | 0, text => text
  | n + 1, text => "NOT (" ++ negated n text ++ ")"

theorem trim_negated_ne_nil (h : trim text.toList ≠ []) (n : Nat) :
    trim (negated n text).toList ≠ [] := by
  cases n with
  | zero => exact h
  | succ n =>
    rw [negated, String.toList_append, String.toList_append]
    exact trim_ne_nil (show isBlank 'N' = false from rfl)

end Query

end Corpus
