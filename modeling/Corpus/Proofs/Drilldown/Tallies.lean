import Corpus.Drilldown.Aggregate
import Corpus.Proofs.Data.Dict
import Corpus.Proofs.Number.Counting
import Mathlib.Data.List.Induction

/-! Tallies of hits that weigh one each, by label, and over several segments. -/

namespace Corpus

open Number

namespace Tally

def ones (n : Nat) : Tally := .sum (List.replicate n ⟨1, 1⟩)

theorem sum_append_singleton (ts : List Tally) (t : Tally) : sum (ts ++ [t]) = (sum ts).add t := by
  rw [sum, sum, List.foldl_append]
  rfl

theorem ones_succ (n : Nat) : ones (n + 1) = (ones n).add ⟨1, 1⟩ := by
  rw [ones, List.replicate_succ', sum_append_singleton]
  rfl

theorem count_sum (ts : List Tally) : (sum ts).count = (ts.map (·.count)).sum := by
  induction ts using List.reverseRecOn with
  | nil => rfl
  | append_singleton ts t ih => simp [sum_append_singleton, add, ih]

theorem count_ones (n : Nat) : (ones n).count = n := by simp [ones, count_sum]

theorem negative_sum {ts : List Tally} (h : ∀ t ∈ ts, t.score.negative = false) :
    (sum ts).score.negative = false := by
  induction ts using List.reverseRecOn with
  | nil => decide +kernel
  | append_singleton ts t ih =>
    rw [List.forall_mem_append, List.forall_mem_singleton] at h
    rw [sum_append_singleton]
    exact Binary.negative_add (ih h.1) h.2

theorem negative_ones (n : Nat) : (ones n).score.negative = false :=
  negative_sum fun t ht => by rw [List.eq_of_mem_replicate ht]; decide +kernel

theorem add_zero {t : Tally} (h : t.score.negative = false) : t.add zero = t := by
  rw [add, zero, Nat.add_zero, Binary.add_zero h]

theorem sum_ones_filter (ns : List Nat) :
    sum ((ns.filter (· ≠ 0)).map ones) = sum (ns.map ones) := by
  induction ns using List.reverseRecOn with
  | nil => rfl
  | append_singleton ns n ih =>
    rw [List.filter_append, List.map_append, List.map_append, List.map_singleton,
      sum_append_singleton, ← ih]
    by_cases hn : n = 0
    · have hnonneg : (sum ((ns.filter (· ≠ 0)).map ones)).score.negative = false :=
        negative_sum fun t ht => by
          obtain ⟨m, -, rfl⟩ := List.mem_map.1 ht
          exact negative_ones m
      rw [hn, List.filter_cons_of_neg (by simp), List.filter_nil, List.map_nil, List.append_nil]
      exact (add_zero hnonneg).symm
    · rw [List.filter_cons_of_pos (by simpa using hn), List.filter_nil, List.map_singleton,
        sum_append_singleton]

theorem score_ones {n : Nat} (h : n < 2 ^ 53) : (ones n).score = .ofNat n := by
  induction n with
  | zero => decide +kernel
  | succ n ih =>
    have hn : n < 2 ^ 53 := Nat.lt_of_succ_lt h
    have hadd := Binary.ofNat_add_ofNat hn (by decide : 1 < 2 ^ 53)
    rw [ones_succ, ← hadd, ← ih hn]
    rfl

theorem score_sum_ones {ns : List Nat} (h : ns.sum < 2 ^ 53) :
    (sum (ns.map ones)).score = .ofNat ns.sum := by
  induction ns using List.reverseRecOn with
  | nil => decide +kernel
  | append_singleton ns n ih =>
    rw [List.sum_append, List.sum_singleton] at h ⊢
    have hns : ns.sum < 2 ^ 53 := by omega
    have hn : n < 2 ^ 53 := by omega
    rw [List.map_append, List.map_singleton, sum_append_singleton, ← Binary.ofNat_add_ofNat hns hn,
      ← ih hns, ← score_ones hn]
    rfl

end Tally

namespace CategoryDrilldown

theorem get?_alter_add (d : Dict String Tally) (label l : String) (t : Tally) :
    (d.alter label fun u => some ((u.getD .zero).add t)).get? l =
      if l = label then some (((d.get? l).getD .zero).add t) else d.get? l := by
  rw [Dict.get?_alter]
  split
  next h => rw [h]
  next => rfl

theorem get?_foldl_ones (labels : List String) (l : String) :
    (labels.foldl (fun d label => d.alter label fun t => some ((t.getD .zero).add ⟨1, 1⟩))
        (.empty : Dict String Tally)).get? l =
      if labels.count l = 0 then none else some (.ones (labels.count l)) := by
  induction labels using List.reverseRecOn with
  | nil => rfl
  | append_singleton labels label ih =>
    rw [List.foldl_append, List.foldl_cons, List.foldl_nil, get?_alter_add, List.count_append, ih]
    by_cases h : l = label
    · subst h
      rw [if_pos rfl, List.count_singleton_self, if_neg (Nat.succ_ne_zero _), Tally.ones_succ]
      by_cases hc : labels.count l = 0
      · rw [hc, if_pos rfl]; rfl
      · rw [if_neg hc]; rfl
    · rw [if_neg h, List.count_singleton, beq_false_of_ne (Ne.symm h), if_neg Bool.false_ne_true,
        Nat.add_zero]

theorem get?_foldl_add {entries : List (String × Tally)}
    (h : entries.Pairwise fun a b => compare a.1 b.1 = .lt) (d : Dict String Tally) (l : String) :
    (entries.foldl (fun d (label, t) => d.alter label fun u => some ((u.getD .zero).add t)) d).get? l =
      (Dict.find l entries).elim (d.get? l) fun t => some (((d.get? l).getD .zero).add t) := by
  induction entries generalizing d with
  | nil => rfl
  | cons a rest ih =>
    obtain ⟨label, t⟩ := a
    rw [List.foldl_cons, ih h.of_cons, get?_alter_add, Dict.find]
    by_cases hl : l = label
    · subst hl
      rw [Dict.find_eq_none fun a ha => List.rel_of_pairwise_cons h ha]
      simp
    · rw [if_neg hl, if_neg (by simpa using hl)]

theorem get?_mergeTallies (d e : Dict String Tally) (l : String) :
    (mergeTallies d e).get? l =
      (e.get? l).elim (d.get? l) fun t => some (((d.get? l).getD .zero).add t) :=
  get?_foldl_add e.ascending d l

theorem get?_foldl_mergeTallies (ds : List (Dict String Tally)) (l : String) :
    (ds.foldl mergeTallies .empty).get? l =
      if ds.filterMap (·.get? l) = [] then none else some (.sum (ds.filterMap (·.get? l))) := by
  induction ds using List.reverseRecOn with
  | nil => rfl
  | append_singleton ds d ih =>
    rw [List.foldl_append, List.foldl_cons, List.foldl_nil, get?_mergeTallies, ih,
      List.filterMap_append]
    cases hd : d.get? l with
    | none => simp [hd]
    | some t =>
      have hsum : (if ds.filterMap (·.get? l) = [] then none
          else some (Tally.sum (ds.filterMap (·.get? l)))).getD .zero =
            .sum (ds.filterMap (·.get? l)) := by
        split
        next h => rw [h]; rfl
        next => rfl
      have hlast : [d].filterMap (·.get? l) = [t] := by rw [List.filterMap_cons, hd, List.filterMap_nil]
      rw [Option.elim_some, hsum, hlast, Tally.sum_append_singleton,
        if_neg (List.append_ne_nil_of_right_ne_nil _ (List.cons_ne_nil t []))]

end CategoryDrilldown

end Corpus
