import Mathlib.Data.List.Basic

/-! Sorting by a rank, and by a label where ranks are equal. -/

namespace Corpus

variable {α : Type u} {rank : α → Int} {label : α → String} {le : α → α → Bool}

theorem pairwise_mergeSort_labels
    (h : ∀ a b, le a b ↔ rank a < rank b ∨ rank a = rank b ∧ label a ≤ label b) {l : List α}
    (hn : (l.map label).Nodup) :
    (l.mergeSort le).Pairwise fun a b => rank a < rank b ∨ rank a = rank b ∧ label a < label b := by
  have htrans (a b c : α) (hab : le a b) (hbc : le b c) : le a c := by
    rw [h] at *
    rcases hab with hab | hab <;> rcases hbc with hbc | hbc
    · exact .inl (Int.lt_trans hab hbc)
    · exact .inl (hbc.1 ▸ hab)
    · exact .inl (hab.1 ▸ hbc)
    · exact .inr ⟨hab.1.trans hbc.1, String.le_trans hab.2 hbc.2⟩
  have htotal (a b : α) : le a b || le b a := by
    rw [Bool.or_eq_true, h, h]
    rcases Int.lt_trichotomy (rank a) (rank b) with hr | hr | hr
    · exact .inl (.inl hr)
    · exact (String.le_total (label a) (label b)).imp (.inr ⟨hr, ·⟩) (.inr ⟨hr.symm, ·⟩)
    · exact .inr (.inl hr)
  have hlabels : ((l.mergeSort le).map label).Nodup :=
    ((List.mergeSort_perm l le).map label).nodup_iff.2 hn
  refine ((List.pairwise_mergeSort htrans htotal l).and (List.pairwise_map.1 hlabels)).imp
    fun {a b} ⟨hab, hne⟩ => ?_
  refine ((h a b).1 hab).imp_right fun ⟨hrank, hle⟩ => ⟨hrank, ?_⟩
  exact Decidable.byContradiction fun hlt => hne (String.le_antisymm hle hlt)

section Rank

variable (rank)

theorem rank_le_trans (a b c : α) (hab : decide (rank a ≤ rank b)) (hbc : decide (rank b ≤ rank c)) :
    decide (rank a ≤ rank c) :=
  decide_eq_true (Int.le_trans (of_decide_eq_true hab) (of_decide_eq_true hbc))

theorem rank_le_total (a b : α) : decide (rank a ≤ rank b) || decide (rank b ≤ rank a) := by
  simp [Int.le_total]

theorem pairwise_mergeSort_rank (l : List α) :
    (l.mergeSort fun a b => rank a ≤ rank b).Pairwise fun a b => rank a ≤ rank b :=
  (List.pairwise_mergeSort (rank_le_trans rank) (rank_le_total rank) l).imp of_decide_eq_true

theorem pairwise_mergeSort_iff {R : α → α → Prop} {l : List α} :
    (l.mergeSort fun a b => rank a ≤ rank b).Pairwise R ↔
      l.Pairwise fun a b => if rank a ≤ rank b then R a b else R b a := by
  induction l with
  | nil => simp
  | cons a rest ih =>
    obtain ⟨before, after, hcons, hrest, hbefore⟩ :=
      List.mergeSort_cons (rank_le_trans rank) (rank_le_total rank) a rest
    have hsorted := pairwise_mergeSort_rank rank (a :: rest)
    rw [hcons, List.pairwise_append, List.pairwise_cons] at hsorted
    have hmem (b : α) : b ∈ rest ↔ b ∈ before ∨ b ∈ after := by
      rw [← List.mem_append, ← hrest, List.mem_mergeSort]
    -- what comes before `a` in order has a lower rank, so that the pair is turned around
    have hfirst : (∀ b ∈ rest, if rank a ≤ rank b then R a b else R b a) ↔
        (∀ b ∈ before, R b a) ∧ ∀ b ∈ after, R a b := by
      simp only [hmem, or_imp, forall_and]
      refine and_congr (forall₂_congr fun b hb => ?_) (forall₂_congr fun b hb => ?_)
      · have hlt : ¬rank a ≤ rank b := by simpa using hbefore b hb
        rw [if_neg hlt]
      · rw [if_pos (hsorted.2.1.1 b hb)]
    rw [List.pairwise_cons, ← ih, hcons, hrest, hfirst, List.pairwise_append, List.pairwise_append,
      List.pairwise_cons]
    simp only [List.forall_mem_cons, forall₂_and]
    grind

end Rank

end Corpus
