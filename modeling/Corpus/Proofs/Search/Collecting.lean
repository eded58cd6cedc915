import Corpus.Proofs.Search.Ranking

/-! Collecting the best hits one by one.  A collector keeps as many as it has room for, and gives up the
weakest of them for a better one.  What it has kept in the end are the first of all hits in order, and none
of these is lost where hits are collected in parts. -/

namespace Corpus

open Number

namespace Hit

theorem rankOrder_eq_lt {a b : Hit} : a.rankOrder b = .lt ↔ a.before b := by
  have hid : compare a.id b.id = .lt ↔ a.id < b.id := compareOfLessAndEq_eq_lt
  rw [before_iff, rankOrder, Ordering.then_eq_lt, Int.compare_eq_lt, Int.compare_eq_eq,
    Binary.totalRank_inj, hid, eq_comm]

theorem rankOrder_swap (a b : Hit) : (a.rankOrder b).swap = b.rankOrder a := by
  rw [rankOrder, rankOrder, Ordering.swap_then, ← Std.OrientedCmp.eq_swap, ← Std.OrientedCmp.eq_swap]

theorem isLE_rankOrder {a b : Hit} : (a.rankOrder b).isLE ↔ ¬b.before a := by
  rw [← rankOrder_eq_lt, ← rankOrder_swap b a]
  cases b.rankOrder a <;> decide

theorem not_before_trans {a b c : Hit} (hab : ¬a.before b) (hbc : ¬b.before c) : ¬a.before c := by
  intro hac
  by_cases hba : b.before a
  · exact hbc (before_trans hba hac)
  · exact hbc (eq_of_not_before hab hba ▸ hac)

end Hit

namespace Ranking

section

variable {h w : Hit} {hits : List Hit}

theorem insert_concat (hb : h.before w) : insert h (hits ++ [w]) = insert h hits ++ [w] := by
  induction hits with
  | nil => exact if_pos hb
  | cons g rest ih =>
    rw [List.cons_append, insert, insert, ih]
    split <;> rfl

theorem insert_of_not_before (hb : ∀ g ∈ hits, ¬h.before g) : insert h hits = hits ++ [h] := by
  induction hits with
  | nil => rfl
  | cons g rest ih =>
    rw [List.forall_mem_cons] at hb
    rw [insert, if_neg hb.1, ih hb.2, List.cons_append]

theorem Ordered.eq_concat (ho : Ordered hits) (hm : w ∈ hits) (hlast : ∀ g ∈ hits, ¬w.before g) :
    ∃ init, hits = init ++ [w] := by
  obtain ⟨init, v, rfl⟩ : ∃ init v, hits = init ++ [v] :=
    ⟨_, _, (List.dropLast_concat_getLast (List.ne_nil_of_mem hm)).symm⟩
  have hw : w = v := by
    have hbehind : w ∈ init → ¬v.before w := fun hm => (List.pairwise_append.1 ho).2.2 w hm v (.head _)
    rw [List.mem_append, List.mem_singleton] at hm
    cases hm with
    | inl hm => exact Hit.eq_of_not_before (hlast v (by simp)) (hbehind hm)
    | inr hm => exact hm
  exact ⟨init, hw ▸ rfl⟩

end

theorem ordered_mergeSort (hits : List Hit) :
    Ordered (hits.mergeSort fun a b => (a.rankOrder b).isLE) := by
  refine (List.pairwise_mergeSort (fun a b c => ?_) (fun a b => ?_) hits).imp Hit.isLE_rankOrder.1
  · rw [Hit.isLE_rankOrder, Hit.isLE_rankOrder, Hit.isLE_rankOrder]
    exact fun hab hbc => Hit.not_before_trans hbc hab
  · rw [Bool.or_eq_true, Hit.isLE_rankOrder, Hit.isLE_rankOrder]
    by_cases hb : b.before a
    · exact .inr (Hit.before_asymm hb)
    · exact .inl hb

theorem sort_eq_mergeSort (hits : List Hit) :
    sort hits = hits.mergeSort fun a b => (a.rankOrder b).isLE :=
  eq_of_perm (ordered_sort hits) (ordered_mergeSort hits)
    ((sort_perm hits).trans (List.mergeSort_perm ..).symm)

end Ranking

namespace Collector

open Ranking

theorem room_collect (c : Collector) (h : Hit) : (c.collect h).room = c.room := by
  rw [collect]
  split
  next => rfl
  next =>
    split
    next => rfl
    next =>
      split
      next => rfl
      next => split <;> rfl

theorem exists_weakest? {hits : List Hit} (hne : hits ≠ []) :
    ∃ w, weakest? hits = some w ∧ w ∈ hits ∧ ∀ g ∈ hits, ¬w.before g := by
  induction hits with
  | nil => exact absurd rfl hne
  | cons h rest ih =>
    by_cases hrest : rest = []
    · subst hrest
      exact ⟨h, rfl, .head _, List.forall_mem_singleton.2 (Hit.before_irrefl h)⟩
    · obtain ⟨w, hw, hmem, hlast⟩ := ih hrest
      rw [weakest?, hw]
      cases hb : h.before w with
      | true =>
        refine ⟨w, by simp [Option.filter, hb], .tail _ hmem, List.forall_mem_cons.2 ⟨?_, hlast⟩⟩
        exact Hit.before_asymm hb
      | false =>
        refine ⟨h, by simp [Option.filter, hb], .head _, List.forall_mem_cons.2 ⟨Hit.before_irrefl h, ?_⟩⟩
        exact fun g hg => Hit.not_before_trans (by simp [hb]) (hlast g hg)

theorem kept_collect_perm {c : Collector} {best : List Hit} (hp : c.kept.Perm best)
    (ho : Ordered best) (hl : best.length ≤ c.room) (h : Hit) :
    (c.collect h).kept.Perm (Ranking.collect c.room best h) := by
  rw [Ranking.collect, collect]
  split
  next hz =>
    rw [hz, Nat.le_zero, List.length_eq_zero_iff] at hl
    rwa [hz, List.take_zero, ← hl]
  next hz =>
    split
    next hlt =>
      have hfits : (Ranking.insert h best).length ≤ c.room := by
        rwa [(insert_perm h best).length_eq, List.length_cons, ← hp.length_eq]
      rw [List.take_of_length_le hfits]
      exact (hp.cons h).trans (insert_perm h best).symm
    next hfull =>
      have hroom : best.length = c.room := by rw [hp.length_eq] at hfull; omega
      have hne : c.kept ≠ [] := fun hn => by simp [hn] at hfull; omega
      obtain ⟨w, hw, hmem, hlast⟩ := exists_weakest? hne
      obtain ⟨init, rfl⟩ := ho.eq_concat (hp.mem_iff.1 hmem) fun g hg => hlast g (hp.mem_iff.2 hg)
      have hinit : c.room = (Ranking.insert h init).length := by
        rw [(insert_perm h init).length_eq, ← hroom, List.length_append, List.length_cons]
        rfl
      rw [hw]
      dsimp only
      split
      next hb =>
        have herase : (c.kept.erase w).Perm init :=
          List.Perm.cons_inv ((List.perm_cons_erase hmem).symm.trans
            (hp.trans (List.perm_append_singleton w init)))
        rw [insert_concat hb, hinit, List.take_left]
        exact (herase.cons h).trans (insert_perm h init).symm
      next hb =>
        have hbehind : ∀ g ∈ init ++ [w], ¬h.before g := fun g hg =>
          Hit.not_before_trans hb (hlast g (hp.mem_iff.2 hg))
        rwa [insert_of_not_before hbehind, ← hroom, List.take_left]

theorem kept_perm_best (room : Nat) (hits : List Hit) :
    (hits.foldl collect (new room)).kept.Perm (best room hits) := by
  suffices ∀ (c : Collector) (best : List Hit), c.room = room → c.kept.Perm best → Ordered best →
      best.length ≤ room →
      (hits.foldl collect c).kept.Perm (hits.foldl (Ranking.collect room) best) from
    this (new room) [] rfl .nil .nil (Nat.zero_le _)
  induction hits with
  | nil => exact fun _ _ _ hp _ _ => hp
  | cons h rest ih =>
    rintro c best rfl hp ho hl
    rw [List.foldl_cons, List.foldl_cons]
    refine ih _ _ (room_collect c h) (kept_collect_perm hp ho hl h) ?_ ?_
    · exact (ho.insert h).take
    · exact List.length_take_le ..

theorem results_eq_best {c : Collector} {room : Nat} {hits : List Hit}
    (h : c.kept.Perm (best room hits)) : c.results = best room hits := by
  have hbest : Ordered (best room hits) := best_eq_take_sort room hits ▸ (ordered_sort hits).take
  exact eq_of_perm (ordered_mergeSort _) hbest ((List.mergeSort_perm ..).trans h)

theorem top_eq_best (room : Nat) (hits : List Hit) : top room hits = best room hits :=
  results_eq_best (kept_perm_best room hits)

/-- A collector has the first of all hits in the end, also where these are collected in parts. -/
theorem top_exact (room : Nat) (hits : List Hit) :
    top room hits = (hits.mergeSort fun a b => (a.rankOrder b).isLE).take room ∧
      top room hits = best room hits ∧
      ∀ parts merged : List (List Hit), parts.flatten.Perm hits → merged.Perm (parts.map (top room)) →
        top room merged.flatten = top room hits := by
  refine ⟨?_, top_eq_best room hits, fun parts merged hparts hmerged => ?_⟩
  · rw [top_eq_best, best_eq_take_sort, sort_eq_mergeSort]
  · have htop : top room = best room := funext (top_eq_best room)
    calc top room merged.flatten
        = best room (parts.map (best room)).flatten := by
          rw [htop]
          exact best_eq_of_perm (htop ▸ hmerged.flatten) room
      _ = best room parts.flatten := best_flatten room parts
      _ = best room hits := best_eq_of_perm hparts room
      _ = top room hits := (top_eq_best room hits).symm

def mixedHits : List Hit := [⟨"d", 1⟩, ⟨"a", .nan false⟩, ⟨"c", .negZero⟩, ⟨"b", 1⟩, ⟨"e", .zero⟩]

theorem top_exact_mixed : ∃ parts merged : List (List Hit), parts.flatten.Perm mixedHits ∧
    merged.Perm (parts.map (top 4)) ∧
    top 4 merged.flatten = [⟨"a", .nan false⟩, ⟨"b", 1⟩, ⟨"d", 1⟩, ⟨"e", .zero⟩] := by
  obtain ⟨-, hbest, hmerge⟩ := top_exact 4 mixedHits
  have hparts : ([mixedHits.drop 2, mixedHits.take 2]).flatten.Perm mixedHits := by decide +kernel
  have hmerged : [top 4 (mixedHits.take 2), top 4 (mixedHits.drop 2)].Perm
      ([mixedHits.drop 2, mixedHits.take 2].map (top 4)) := .swap ..
  refine ⟨_, _, hparts, hmerged, (hmerge _ _ hparts hmerged).trans (hbest.trans ?_)⟩
  decide +kernel

end Collector

end Corpus
