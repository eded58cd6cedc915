import Corpus.Proofs.Drilldown.Apart
import Corpus.Proofs.Search.Ranking
import Mathlib.Data.List.Permutation

/-! The order in which buckets are listed.  It makes no difference to the check, unless it puts an empty bucket
before or after one with numbers that starts at the same edge. -/

namespace Corpus

open Number

theorem sublist_pair_of_perm {l m : List α} (h : l.Perm m) {a b : α} (hab : [a, b].Sublist m) :
    [a, b].Sublist l ∨ [b, a].Sublist l := by
  obtain ⟨pair, hpair, hsublist⟩ := hab.subperm.trans h.symm.subperm
  rcases List.perm_pair.1 hpair with rfl | rfl
  · exact .inl hsublist
  · exact .inr hsublist

namespace Bucket

variable {a b : Bucket} {buckets arranged : List Bucket}

def isEmpty (b : Bucket) : Bool := b.upper.le b.lower

/-- Whether a bucket is apart from one that is listed later.  Of two that start alike it has to be empty. -/
def Precedes (a b : Bucket) : Prop :=
  if a.lower.totalRank ≤ b.lower.totalRank then a.upper.rank ≤ b.lower.rank
  else b.upper.rank ≤ a.lower.rank

theorem isEmpty_iff (hb : b.isValid) : b.isEmpty ↔ b.upper.rank ≤ b.lower.rank := by
  obtain ⟨hlower, hupper, -⟩ := isValid_iff.1 hb
  exact Binary.le_iff hupper hlower

theorem not_contains (ha : a.isValid) (hb : b.isValid) (hab : a.upper.rank ≤ b.lower.rank) :
    a.contains b.lower = false := by
  obtain ⟨-, haupper, -⟩ := isValid_iff.1 ha
  obtain ⟨hblower, -, -⟩ := isValid_iff.1 hb
  rw [contains, Bool.and_eq_false_iff]
  refine .inr (Bool.eq_false_iff.2 fun hlt => ?_)
  rw [Binary.lt_iff hblower haupper] at hlt
  omega

theorem overlap?_of_pairwise {buckets : List Bucket} (hv : ∀ b ∈ buckets, b.isValid)
    (h : buckets.Pairwise fun a b => a.upper.rank ≤ b.lower.rank) : overlap? buckets = none := by
  match buckets with
  | [] => rfl
  | [a] => rfl
  | a :: b :: rest =>
    have hab := not_contains (hv a (.head _)) (hv b (.tail _ (.head _)))
      (List.rel_of_pairwise_cons h (.head _))
    rw [overlap?, hab, if_neg Bool.false_ne_true]
    exact overlap?_of_pairwise (fun c hc => hv c (.tail _ hc)) h.of_cons

theorem check_eq_ok_iff :
    check buckets = .ok () ↔ (∀ b ∈ buckets, b.isValid) ∧ buckets.Pairwise Precedes := by
  have hsort : (buckets.mergeSort fun a b => a.lower.totalRank ≤ b.lower.totalRank).Pairwise
      (fun a b => a.upper.rank ≤ b.lower.rank) ↔ buckets.Pairwise Precedes :=
    pairwise_mergeSort_iff fun b : Bucket => b.lower.totalRank
  rw [← hsort]
  constructor
  · exact fun h => ⟨isValid_of_check h, pairwise_mergeSort_of_check h⟩
  · intro ⟨hv, h⟩
    have hfind : buckets.find? (! ·.isValid) = none :=
      List.find?_eq_none.2 fun b hb => by simpa using hv b hb
    have hapart := overlap?_of_pairwise (fun b hb => hv b (List.mem_mergeSort.1 hb)) h
    rw [check, hfind]
    dsimp only
    rw [hapart]

theorem Precedes.symm (ha : a.isValid) (hb : b.isValid)
    (htie : a.lower = b.lower → a.isEmpty = b.isEmpty) (h : a.Precedes b) : b.Precedes a := by
  rw [Precedes] at h ⊢
  rcases Int.lt_trichotomy a.lower.totalRank b.lower.totalRank with hlt | heq | hlt
  · rw [if_pos (Int.le_of_lt hlt)] at h
    rwa [if_neg (Int.not_le.2 hlt)]
  · have hlower := Binary.totalRank_inj.1 heq
    rw [if_pos (Int.le_of_eq heq), ← hlower, ← isEmpty_iff ha, htie hlower, isEmpty_iff hb] at h
    rwa [if_pos (Int.le_of_eq heq.symm), hlower]
  · rw [if_neg (Int.not_le.2 hlt)] at h
    rwa [if_pos (Int.le_of_lt hlt)]

theorem check_ne_ok_of_sublist (hab : [a, b].Sublist buckets) (hlower : a.lower = b.lower)
    (ha : a.isEmpty = false) : check buckets ≠ .ok () := by
  intro h
  obtain ⟨hv, hpair⟩ := check_eq_ok_iff.1 h
  have hprecedes := List.rel_of_pairwise_cons (hpair.sublist hab) (List.mem_singleton_self b)
  have hle : a.lower.totalRank ≤ b.lower.totalRank := Int.le_of_eq (congrArg _ hlower)
  rw [Precedes, if_pos hle, ← hlower, ← isEmpty_iff (hv a (hab.subset (.head _))), ha] at hprecedes
  exact Bool.false_ne_true hprecedes

/-- Whether a bucket with numbers comes before an empty one that starts alike in both lists or in neither. -/
def TiesKept (buckets arranged : List Bucket) : Prop :=
  ∀ a ∈ buckets, ∀ b ∈ buckets, a.lower = b.lower → a.isEmpty = false → b.isEmpty →
    ([a, b].Sublist buckets ↔ [a, b].Sublist arranged)

instance : Decidable (TiesKept buckets arranged) :=
  inferInstanceAs (Decidable (∀ a ∈ buckets, ∀ b ∈ buckets, a.lower = b.lower → a.isEmpty = false →
    b.isEmpty → ([a, b].Sublist buckets ↔ [a, b].Sublist arranged)))

theorem TiesKept.symm (hp : buckets.Perm arranged) (h : TiesKept buckets arranged) :
    TiesKept arranged buckets := fun a ha b hb hlower hna hnb =>
  (h a (hp.mem_iff.2 ha) b (hp.mem_iff.2 hb) hlower hna hnb).symm

theorem TiesKept.check (hp : buckets.Perm arranged) (hties : TiesKept buckets arranged)
    (h : check buckets = .ok ()) : Bucket.check arranged = .ok () := by
  obtain ⟨hv, hpair⟩ := check_eq_ok_iff.1 h
  rw [List.pairwise_iff_forall_sublist] at hpair
  refine check_eq_ok_iff.2 ⟨fun b hb => hv b (hp.mem_iff.2 hb), ?_⟩
  refine List.pairwise_iff_forall_sublist.2 fun {a b} hab => ?_
  cases sublist_pair_of_perm hp hab with
  | inl hkept => exact hpair hkept
  | inr hturned =>
    have ha : a ∈ buckets := hturned.subset (.tail _ (.head _))
    have hb : b ∈ buckets := hturned.subset (.head _)
    refine (hpair hturned).symm (hv b hb) (hv a ha) fun hlower => ?_
    cases hnb : b.isEmpty with
    | false => exact absurd h (check_ne_ok_of_sublist hturned hlower hnb)
    | true =>
      cases hna : a.isEmpty with
      | true => rfl
      | false =>
        have hkept := (hties a ha b hb hlower.symm hna hnb).2 hab
        exact absurd h (check_ne_ok_of_sublist hkept hlower.symm hna)

end Bucket

theorem Drilldown.check_congr {r : Drilldown} {schema : Schema} {buckets arranged : List Bucket}
    (h : Bucket.check arranged = .ok () ↔ Bucket.check buckets = .ok ()) :
    { r with buckets := arranged }.check schema = .ok () ↔
      { r with buckets }.check schema = .ok () := by
  simp only [check, bind_eq_ok]
  refine exists_congr fun _ => and_congr_right fun _ => exists_congr fun _ => and_congr_right fun _ => ?_
  cases r.rangeField with
  | none => rfl
  | some field => simp only [bind_eq_ok, h]

namespace Bucket

/-- Only an empty bucket and one with numbers at the same edge may not change places. -/
theorem check_arranged {buckets arranged : List Bucket} (hp : buckets.Perm arranged)
    (hties : TiesKept buckets arranged) :
    (check arranged = .ok () ↔ check buckets = .ok ()) ∧
    ∀ (r : Drilldown) (schema : Schema),
      { r with buckets := arranged }.check schema = .ok () ↔
        { r with buckets }.check schema = .ok () := by
  have hcheck : check arranged = .ok () ↔ check buckets = .ok () :=
    ⟨(hties.symm hp).check hp.symm, hties.check hp⟩
  exact ⟨hcheck, fun r schema => Drilldown.check_congr hcheck⟩

def edged : List Bucket := [⟨"none", 0, 0⟩, ⟨"some", 0, 5⟩, ⟨"last", 5, 5⟩]

theorem check_arranged_edged :
    edged.Perm [⟨"last", 5, 5⟩, ⟨"none", 0, 0⟩, ⟨"some", 0, 5⟩] ∧
    TiesKept edged [⟨"last", 5, 5⟩, ⟨"none", 0, 0⟩, ⟨"some", 0, 5⟩] ∧
    check [⟨"last", 5, 5⟩, ⟨"none", 0, 0⟩, ⟨"some", 0, 5⟩] = .ok () := by
  have hp : edged.Perm [⟨"last", 5, 5⟩, ⟨"none", 0, 0⟩, ⟨"some", 0, 5⟩] := by decide +kernel
  have hties : TiesKept edged [⟨"last", 5, 5⟩, ⟨"none", 0, 0⟩, ⟨"some", 0, 5⟩] := by decide +kernel
  have hcheck : check edged = .ok () :=
    check_of_pairwise (by decide +kernel) (by decide +kernel) (by decide +kernel)
  exact ⟨hp, hties, (check_arranged hp hties).1.2 hcheck⟩

/-- The same two buckets pass in one order and not in the other. -/
theorem check_turned :
    [⟨"none", 0, 0⟩, ⟨"some", 0, 5⟩].Perm [(⟨"some", 0, 5⟩ : Bucket), ⟨"none", 0, 0⟩] ∧
    check [⟨"none", 0, 0⟩, ⟨"some", 0, 5⟩] = .ok () ∧
    check [⟨"some", 0, 5⟩, ⟨"none", 0, 0⟩] = .error (.overlap "some" "none") := by
  have hpass : check [⟨"none", 0, 0⟩, ⟨"some", 0, 5⟩] = .ok () :=
    check_of_pairwise (by decide +kernel) (by decide +kernel) (by decide +kernel)
  refine ⟨.swap .., hpass, ?_⟩
  rw [check, List.mergeSort_of_pairwise (by decide +kernel)]
  decide +kernel

end Bucket

end Corpus
