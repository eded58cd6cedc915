import Corpus.Proofs.Drilldown.Buckets
import Corpus.Proofs.Index.Interval
import Mathlib.Data.List.Nodup

/-! Buckets that were checked are apart in the index of numbers: no number is in the ranges of two of them,
in whatever order they come. -/

namespace Corpus

open Number

namespace Bucket

variable {a b : Bucket} {buckets : List Bucket} {x : Binary64}

/-- Whether a number is in the range that the index is asked for: a document that holds it is found. -/
def Takes (b : Bucket) (x : Binary64) : Prop :=
  ∀ doc field, doc ∈ (NumberIndex.empty.add doc field x).range field b.bounds.1 b.bounds.2

theorem takes_iff_hasKey : b.Takes x ↔ x.isNaN = false ∧ b.hasKey (sortKey x) := by
  have hmem (doc : Nat) (field : String) :
      doc ∈ (NumberIndex.empty.add doc field x).range field b.bounds.1 b.bounds.2 ↔
        x.isNaN = false ∧ b.hasKey (sortKey x) := by
    refine (NumberIndex.holds_edited [.add doc field x]).mem_range.trans ?_
    rw [NumberIndex.held, List.foldl_cons, List.foldl_nil, NumberIndex.Edit.leave, hasKey]
    cases x.isNaN with
    | true => simp
    | false => simp
  constructor
  · intro h
    exact (hmem 0 "").1 (h 0 "")
  · intro h doc field
    exact (hmem doc field).2 h

theorem takes_iff (hb : b.isValid) :
    b.Takes x ↔ x.isNaN = false ∧ b.lower.lt (.infinity false) ∧ b.lower.le x ∧
      (x.lt b.upper ∨ b.upper.eq (.infinity false)) := by
  rw [takes_iff_hasKey]
  refine and_congr_right fun hx => (hasKey_sortKey hb hx).trans (and_congr_right fun _ => ?_)
  rw [admits, Bool.and_eq_true, Bool.or_eq_true]

theorem mem_range_edited {edits : List NumberIndex.Edit} {field : String} {doc : Nat} :
    doc ∈ (NumberIndex.edited edits).range field b.bounds.1 b.bounds.2 ↔
      ∃ x, ⟨doc, field, x⟩ ∈ NumberIndex.held edits ∧ b.Takes x := by
  have h := NumberIndex.holds_edited edits
  rw [h.mem_range]
  refine exists_congr fun x => and_congr_right fun hm => ?_
  rw [takes_iff_hasKey, and_iff_right (h.isNumber hm), hasKey, Bool.and_eq_true, decide_eq_true_eq,
    decide_eq_true_eq]

def Apart (a b : Bucket) : Prop := ∀ x, ¬(a.Takes x ∧ b.Takes x)

theorem Apart.symm (h : a.Apart b) : b.Apart a := fun x hx => h x hx.symm

theorem apart_of_le (ha : a.isValid) (hb : b.isValid) (hab : a.upper.rank ≤ b.lower.rank) :
    a.Apart b := by
  intro x ⟨hax, hbx⟩
  obtain ⟨hx, hax⟩ := takes_iff_hasKey.1 hax
  obtain ⟨-, hadmits⟩ := (hasKey_sortKey ha hx).1 hax
  obtain ⟨hlt, hbx⟩ := (hasKey_sortKey hb hx).1 (takes_iff_hasKey.1 hbx).2
  exact Bool.false_ne_true ((not_admits_of_le ha hb hab hlt hx hadmits).symm.trans hbx)

theorem pairwise_apart (h : check buckets = .ok ()) : buckets.Pairwise Apart := by
  obtain ⟨sorted, hperm, hapart⟩ := exists_perm_of_check h
  have hv : ∀ b ∈ sorted, b.isValid := fun b hb => isValid_of_check h b (hperm.mem_iff.1 hb)
  have hsorted : sorted.Pairwise Apart :=
    hapart.imp_of_mem fun {a b} ha hb hab => apart_of_le (hv a ha) (hv b hb) hab
  -- no matter which of a pair comes first
  exact (hperm.pairwise_iff Apart.symm).1 hsorted

theorem apart_of_ne (h : check buckets = .ok ()) {i j : Nat} (hi : buckets[i]? = some a)
    (hj : buckets[j]? = some b) (hne : i ≠ j) : a.Apart b := by
  obtain ⟨hi', rfl⟩ := List.getElem?_eq_some_iff.1 hi
  obtain ⟨hj', rfl⟩ := List.getElem?_eq_some_iff.1 hj
  have hpair := List.pairwise_iff_getElem.1 (pairwise_apart h)
  cases Nat.lt_or_gt_of_ne hne with
  | inl hlt => exact hpair i j hi' hj' hlt
  | inr hgt => exact (hpair j i hj' hi' hgt).symm

theorem check_of_perm {sorted : List Bucket} (hp : buckets.Perm sorted)
    (hs : sorted.Pairwise fun a b => a.lower.totalRank < b.lower.totalRank)
    (hv : ∀ b ∈ sorted, b.isValid) (ho : overlap? sorted = none) : check buckets = .ok () := by
  have hle : sorted.Pairwise fun a b => a.lower.totalRank ≤ b.lower.totalRank := hs.imp Int.le_of_lt
  have hnodup : (sorted.map (·.lower.totalRank)).Nodup :=
    List.pairwise_map.2 (hs.imp fun {a b} hab => Int.ne_of_lt hab)
  -- no two start alike, so that there is one order only
  have hsort : buckets.mergeSort (fun a b => a.lower.totalRank ≤ b.lower.totalRank) = sorted := by
    have hperm := (List.mergeSort_perm buckets fun a b =>
      decide (a.lower.totalRank ≤ b.lower.totalRank)).trans hp
    refine hperm.eq_of_pairwise (fun a b ha hb hab hba => ?_) (pairwise_mergeSort_rank (·.lower.totalRank) buckets) hle
    exact List.inj_on_of_nodup_map hnodup (hperm.mem_iff.1 ha) hb (Int.le_antisymm hab hba)
  have hfind : buckets.find? (! ·.isValid) = none :=
    List.find?_eq_none.2 fun b hb => by simpa using hv b (hp.mem_iff.1 hb)
  rw [check, hfind, hsort]
  dsimp only
  rw [ho]

/-- No number is in two buckets of a list that passes the check. -/
theorem disjoint_of_check (h : check buckets = .ok ()) {i j : Nat} (hi : buckets[i]? = some a)
    (hj : buckets[j]? = some b) (hne : i ≠ j) :
    (∀ x, ¬(a.Takes x ∧ b.Takes x)) ∧
    (∀ x, a.Takes x ↔ x.isNaN = false ∧ a.lower.lt (.infinity false) ∧ a.lower.le x ∧
      (x.lt a.upper ∨ a.upper.eq (.infinity false))) ∧
    ∀ (edits : List NumberIndex.Edit) (field : String) (doc : Nat),
      doc ∈ (NumberIndex.edited edits).range field a.bounds.1 a.bounds.2 →
      doc ∈ (NumberIndex.edited edits).range field b.bounds.1 b.bounds.2 →
      ∃ x y, ⟨doc, field, x⟩ ∈ NumberIndex.held edits ∧ ⟨doc, field, y⟩ ∈ NumberIndex.held edits ∧
        a.Takes x ∧ b.Takes y ∧ x.eq y = false := by
  have hapart := apart_of_ne h hi hj hne
  refine ⟨hapart, fun x => takes_iff (isValid_of_check h a (List.mem_of_getElem? hi)),
    fun edits field doc ha hb => ?_⟩
  obtain ⟨x, hx, hax⟩ := mem_range_edited.1 ha
  obtain ⟨y, hy, hby⟩ := mem_range_edited.1 hb
  refine ⟨x, y, hx, hy, hax, hby, Bool.eq_false_iff.2 fun heq => hapart y ⟨?_, hby⟩⟩
  -- equal numbers have one key, and so are in the same buckets
  obtain ⟨hxn, hkey⟩ := takes_iff_hasKey.1 hax
  obtain ⟨hyn, -⟩ := takes_iff_hasKey.1 hby
  rw [(sortKey_eq_sortKey hyn).2 heq] at hkey
  exact takes_iff_hasKey.2 ⟨hyn, hkey⟩

def mixedEdges : List Bucket :=
  [⟨"end", .infinity false, .infinity false⟩, ⟨"high", 5, .infinity false⟩,
    ⟨"low", .infinity true, ⟨true, 0⟩⟩, ⟨"mid", 0, 5⟩, ⟨"none", ⟨true, 0⟩, 0⟩]

theorem disjoint_of_check_mixedEdges : check mixedEdges = .ok () ∧
    (⟨"high", 5, .infinity false⟩ : Bucket).Takes (.infinity false) ∧
    ¬(⟨"end", .infinity false, .infinity false⟩ : Bucket).Takes (.infinity false) := by
  have hperm : mixedEdges.Perm [⟨"low", .infinity true, ⟨true, 0⟩⟩, ⟨"none", ⟨true, 0⟩, 0⟩,
      ⟨"mid", 0, 5⟩, ⟨"high", 5, .infinity false⟩, ⟨"end", .infinity false, .infinity false⟩] := by
    decide +kernel
  have hcheck := check_of_perm hperm (by decide +kernel) (by decide +kernel) (by decide +kernel)
  obtain ⟨hapart, htakes, -⟩ := disjoint_of_check (i := 1) (j := 0) hcheck rfl rfl (by decide)
  have hhigh := (htakes (.infinity false)).2 (by decide +kernel)
  exact ⟨hcheck, hhigh, fun hend => hapart _ ⟨hhigh, hend⟩⟩

end Bucket

end Corpus
