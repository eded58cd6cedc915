import Corpus.Search.Ranking

/-! The best of some hits are the first of them in the one order that all hits have, in whatever order
and in whatever parts they are collected. -/

namespace Corpus

open Number

theorem Number.Binary.totalRank_inj {f : Format} {x y : Binary f} :
    x.totalRank = y.totalRank ↔ x = y := by
  constructor
  · intro h
    obtain ⟨n, m⟩ := x
    obtain ⟨n', m'⟩ := y
    cases n <;> cases n' <;> simp only [totalRank, if_true, Bool.false_eq_true, if_false] at h
    · rw [Int.natCast_inj.1 h]
    · omega
    · omega
    · rw [show m = m' by omega]
  · exact fun h => h ▸ rfl

namespace Hit

theorem before_iff {a b : Hit} :
    a.before b ↔ b.score.totalRank < a.score.totalRank ∨ a.score = b.score ∧ a.id < b.id := by
  simp [before, Binary.totalRank_inj]

theorem before_irrefl (a : Hit) : ¬a.before a := by
  rw [before_iff]
  intro h
  cases h with
  | inl h => exact Int.lt_irrefl _ h
  | inr h => exact String.lt_irrefl _ h.2

theorem before_trans {a b c : Hit} (hab : a.before b) (hbc : b.before c) : a.before c := by
  rw [before_iff] at *
  cases hab with
  | inl hab =>
    cases hbc with
    | inl hbc => exact .inl (Int.lt_trans hbc hab)
    | inr hbc => exact .inl (hbc.1 ▸ hab)
  | inr hab =>
    cases hbc with
    | inl hbc => exact .inl (hab.1 ▸ hbc)
    | inr hbc => exact .inr ⟨hab.1.trans hbc.1, Std.lt_trans hab.2 hbc.2⟩

theorem before_asymm {a b : Hit} (h : a.before b) : ¬b.before a := fun h' =>
  before_irrefl a (before_trans h h')

theorem eq_of_not_before {a b : Hit} (hab : ¬a.before b) (hba : ¬b.before a) : a = b := by
  rw [before_iff, not_or] at hab hba
  have hs : a.score = b.score := Binary.totalRank_inj.1 (by omega)
  have hid : a.id = b.id :=
    String.le_antisymm (fun h => hba.2 ⟨hs.symm, h⟩) (fun h => hab.2 ⟨hs, h⟩)
  cases a
  cases b
  simp_all

end Hit

namespace Ranking

def Ordered (hits : List Hit) : Prop := hits.Pairwise fun a b => ¬b.before a

def sort (hits : List Hit) : List Hit := hits.foldl (fun sorted h => insert h sorted) []

theorem insert_perm (h : Hit) (hits : List Hit) : (insert h hits).Perm (h :: hits) := by
  induction hits with
  | nil => exact .refl _
  | cons g rest ih =>
    rw [insert]
    split
    next => exact .refl _
    next => exact (ih.cons g).trans (.swap h g rest)

theorem Ordered.insert {hits : List Hit} (ho : Ordered hits) (h : Hit) :
    Ordered (insert h hits) := by
  induction hits with
  | nil => exact List.pairwise_singleton _ _
  | cons g rest ih =>
    have hg : ∀ a ∈ rest, ¬a.before g := fun a => List.rel_of_pairwise_cons ho
    rw [Ranking.insert]
    split
    next hb =>
      refine .cons (fun a ha hah => ?_) ho
      cases ha with
      | head => exact Hit.before_asymm hb hah
      | tail _ ha => exact hg a ha (Hit.before_trans hah hb)
    next hb =>
      refine .cons (fun a ha => ?_) (ih ho.of_cons)
      cases (insert_perm h rest).mem_iff.1 ha with
      | head => exact hb
      | tail _ ha => exact hg a ha

theorem eq_of_perm {l m : List Hit} (hl : Ordered l) (hm : Ordered m) (h : l.Perm m) : l = m :=
  List.Perm.eq_of_pairwise (fun _ _ _ _ hab hba => Hit.eq_of_not_before hba hab) hl hm h

theorem foldl_insert_perm (hits sorted : List Hit) :
    (hits.foldl (fun sorted h => insert h sorted) sorted).Perm (hits ++ sorted) := by
  induction hits generalizing sorted with
  | nil => exact .refl _
  | cons h rest ih =>
    exact (ih _).trans (((insert_perm h sorted).append_left rest).trans List.perm_middle)

theorem Ordered.foldl_insert {sorted : List Hit} (h : Ordered sorted) (hits : List Hit) :
    Ordered (hits.foldl (fun sorted h => Ranking.insert h sorted) sorted) := by
  induction hits generalizing sorted with
  | nil => exact h
  | cons g rest ih => exact ih (h.insert g)

theorem sort_perm (hits : List Hit) : (sort hits).Perm hits := by
  have h := foldl_insert_perm hits []
  rwa [List.append_nil] at h

theorem ordered_sort (hits : List Hit) : Ordered (sort hits) :=
  Ordered.foldl_insert .nil hits

theorem sort_eq_of_perm {l m : List Hit} (h : l.Perm m) : sort l = sort m :=
  eq_of_perm (ordered_sort l) (ordered_sort m) ((sort_perm l).trans (h.trans (sort_perm m).symm))

theorem sort_filter (keeps : Hit → Bool) (hits : List Hit) :
    sort (hits.filter keeps) = (sort hits).filter keeps :=
  eq_of_perm (ordered_sort _) ((ordered_sort hits).filter keeps)
    ((sort_perm _).trans ((sort_perm hits).filter keeps).symm)

theorem sort_of_ordered {hits : List Hit} (h : Ordered hits) : sort hits = hits :=
  eq_of_perm (ordered_sort hits) h (sort_perm hits)

theorem take_insert_take (k : Nat) (h : Hit) (hits : List Hit) :
    (insert h (hits.take k)).take k = (insert h hits).take k := by
  induction hits generalizing k with
  | nil => rw [List.take_nil]
  | cons g rest ih =>
    cases k with
    | zero => rfl
    | succ k =>
      rw [List.take_succ_cons, insert, insert]
      split
      -- `h` comes first, and pushes the last of them out
      next => cases k <;> simp [List.take_take]
      next => rw [List.take_succ_cons, List.take_succ_cons, ih]

theorem foldl_collect (k : Nat) (hits sorted : List Hit) :
    hits.foldl (collect k) (sorted.take k) =
      (hits.foldl (fun sorted h => insert h sorted) sorted).take k := by
  induction hits generalizing sorted with
  | nil => rfl
  | cons h rest ih => rw [List.foldl_cons, List.foldl_cons, collect, take_insert_take, ih]

theorem best_eq_take_sort (k : Nat) (hits : List Hit) : best k hits = (sort hits).take k := by
  have h := foldl_collect k hits []
  rwa [List.take_nil] at h

theorem best_eq_of_perm {l m : List Hit} (h : l.Perm m) (k : Nat) : best k l = best k m := by
  rw [best_eq_take_sort, best_eq_take_sort, sort_eq_of_perm h]

theorem best_best (k : Nat) (hits : List Hit) : best k (best k hits) = best k hits := by
  have h : Ordered ((sort hits).take k) := (ordered_sort hits).take
  rw [best_eq_take_sort k hits, best_eq_take_sort, sort_of_ordered h, List.take_take, Nat.min_self]

theorem best_append_left (k : Nat) (l m : List Hit) : best k (best k l ++ m) = best k (l ++ m) := by
  have h := best_best k l
  simp only [best, List.foldl_append] at h ⊢
  rw [h]

theorem best_flatten (k : Nat) (parts : List (List Hit)) :
    best k (parts.map (best k)).flatten = best k parts.flatten := by
  suffices ∀ l, best k (l ++ (parts.map (best k)).flatten) = best k (l ++ parts.flatten) from this []
  induction parts with
  | nil => exact fun _ => rfl
  | cons part rest ih =>
    intro l
    calc best k (l ++ ((part :: rest).map (best k)).flatten)
        = best k ((l ++ best k part) ++ (rest.map (best k)).flatten) := by simp
      _ = best k ((l ++ best k part) ++ rest.flatten) := ih _
      _ = best k (l ++ (best k part ++ rest.flatten)) := by rw [List.append_assoc]
      _ = best k (best k part ++ (l ++ rest.flatten)) :=
        best_eq_of_perm (List.perm_append_comm_assoc ..) k
      _ = best k (part ++ (l ++ rest.flatten)) := best_append_left ..
      _ = best k (l ++ (part :: rest).flatten) := best_eq_of_perm (List.perm_append_comm_assoc ..) k

end Ranking

end Corpus
