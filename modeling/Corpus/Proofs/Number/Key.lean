import Corpus.Number.Key

/-! The keys of numbers are ordered as the numbers are, and the bounds on keys admit the keys of what
the bounds on numbers admit. -/

namespace Corpus.Number

namespace Binary

variable {f : Format} {x y : Binary f}

theorem isNaN_of_isFinite (h : x.isFinite = true) : x.isNaN = false := by
  simp only [isFinite, decide_eq_true_eq] at h
  simp only [isNaN, decide_eq_false_iff_not]
  omega

theorem isInfinite_of_isFinite (h : x.isFinite = true) : x.isInfinite = false := by
  simp only [isFinite, decide_eq_true_eq] at h
  simp only [isInfinite, decide_eq_false_iff_not]
  omega

theorem eq_self (hx : x.isFinite) : x.eq x := by
  rw [eq, isNaN_of_isFinite hx, decide_eq_true rfl]
  rfl

theorem rank_le_of_totalRank_le (h : x.totalRank ≤ y.totalRank) : x.rank ≤ y.rank := by
  rw [totalRank, totalRank] at h
  rw [rank, rank]
  cases hx : x.negative <;> cases hy : y.negative <;>
    simp only [hx, hy, if_true, Bool.false_eq_true, if_false] at h ⊢ <;> omega

theorem rank_le_infinity (hx : x.isNaN = false) : x.rank ≤ f.infinity := by
  have hm : x.magnitude ≤ f.infinity := by simpa [isNaN] using hx
  rw [rank]
  split <;> omega

theorem eq_infinity (hn : x.isNaN = false) (hf : x.isFinite = false) : x = .infinity x.negative := by
  simp only [isNaN, isFinite, decide_eq_false_iff_not] at hn hf
  exact congrArg (Binary.mk x.negative) (by omega)

theorem lt_iff (hx : x.isNaN = false) (hy : y.isNaN = false) : x.lt y ↔ x.rank < y.rank := by
  simp [lt, hx, hy]

theorem le_iff (hx : x.isNaN = false) (hy : y.isNaN = false) : x.le y ↔ x.rank ≤ y.rank := by
  simp [le, hx, hy]

theorem eq_iff (hx : x.isNaN = false) (hy : y.isNaN = false) : x.eq y ↔ x.rank = y.rank := by
  simp [eq, hx, hy]

theorem eq_iff_le (hx : x.isNaN = false) (hy : y.isNaN = false) : x.eq y ↔ x.le y ∧ y.le x := by
  rw [le_iff hx hy, le_iff hy hx, eq_iff hx hy]
  omega

theorem isNaN_infinity (negative : Bool) : (infinity negative : Binary f).isNaN = false :=
  decide_eq_false (Nat.lt_irrefl _)

theorem le_infinity (hx : x.isNaN = false) : x.le (infinity false) :=
  (le_iff hx (isNaN_infinity false)).2 (rank_le_infinity hx)

theorem neg_infinity_le (hx : x.isNaN = false) : (infinity true).le x := by
  have hm : x.magnitude ≤ f.infinity := by simpa [isNaN] using hx
  have hr : -(f.infinity : Int) ≤ x.rank := by
    rw [rank]
    split <;> omega
  exact (le_iff (isNaN_infinity true) hx).2 hr

end Binary

theorem magnitude_lt_middleKey {x : Binary64} (hx : x.isNaN = false) : x.magnitude < middleKey := by
  have h : Format.double.infinity < middleKey := by decide
  simp only [Binary.isNaN, decide_eq_false_iff_not] at hx
  omega

theorem sortKey_eq (x : Binary64) (hx : x.isNaN = false) :
    (sortKey x : Int) = middleKey + x.rank - if x.rank < 0 then 1 else 0 := by
  have hm := magnitude_lt_middleKey hx
  rw [sortKey, Binary.rank, Binary.isZero]
  cases x.negative <;> simp only [decide_eq_true_eq, if_true, Bool.false_eq_true, if_false]
  · split <;> split <;> omega
  · split <;> split <;> omega

theorem sortKey_lt_sortKey {x y : Binary64} (hx : x.isNaN = false) (hy : y.isNaN = false) :
    sortKey x < sortKey y ↔ x.rank < y.rank := by
  have hkx := sortKey_eq x hx
  have hky := sortKey_eq y hy
  split at hkx <;> split at hky <;> omega

theorem sortKey_le_sortKey {x y : Binary64} (hx : x.isNaN = false) (hy : y.isNaN = false) :
    sortKey x ≤ sortKey y ↔ x.rank ≤ y.rank := by
  rw [← Nat.not_lt, sortKey_lt_sortKey hy hx, Int.not_lt]

theorem sortKey_lt_size {x : Binary64} (hx : x.isNaN = false) : sortKey x < UInt64.size := by
  have hm := magnitude_lt_middleKey hx
  have hs : UInt64.size = 2 * middleKey := by decide
  rw [sortKey]
  split
  next => omega
  next => split <;> omega

namespace Bound

def Regular : Bound → Prop
  | .unbounded => True
  | .included x => x.isFinite = true
  | .excluded x => x.isNaN = false

def Below (v : Binary64) : Bound → Prop
  | .unbounded => True
  | .included x => x.le v = true
  | .excluded x => x.lt v = true

def Above (v : Binary64) : Bound → Prop
  | .unbounded => True
  | .included x => v.le x = true
  | .excluded x => v.lt x = true

instance (b : Bound) : Decidable b.Regular :=
  match b with
  | .unbounded => .isTrue trivial
  | .included x => inferInstanceAs (Decidable (x.isFinite = true))
  | .excluded x => inferInstanceAs (Decidable (x.isNaN = false))

instance (v : Binary64) (b : Bound) : Decidable (b.Below v) :=
  match b with
  | .unbounded => .isTrue trivial
  | .included x => inferInstanceAs (Decidable (x.le v = true))
  | .excluded x => inferInstanceAs (Decidable (x.lt v = true))

instance (v : Binary64) (b : Bound) : Decidable (b.Above v) :=
  match b with
  | .unbounded => .isTrue trivial
  | .included x => inferInstanceAs (Decidable (v.le x = true))
  | .excluded x => inferInstanceAs (Decidable (v.lt x = true))

theorem least_le_sortKey {b : Bound} (h : b.Regular) {v : Binary64} (hv : v.isNaN = false) :
    b.least ≤ sortKey v ↔ b.Below v := by
  cases b with
  | unbounded => simp [least, Below]
  | included x =>
    have hx := Binary.isNaN_of_isFinite h
    simp [least, Below, Binary.le, Binary.isInfinite_of_isFinite h, sortKey_le_sortKey hx hv, hx,
      hv]
  | excluded x =>
    rw [least, Nat.succ_le_iff, sortKey_lt_sortKey h hv]
    simp [Below, Binary.lt, show x.isNaN = false from h, hv]

theorem sortKey_lt_limit {b : Bound} (h : b.Regular) {v : Binary64} (hv : v.isNaN = false) :
    sortKey v < b.limit ↔ b.Above v := by
  cases b with
  | unbounded => simp [limit, Above, sortKey_lt_size hv]
  | included x =>
    have hx := Binary.isNaN_of_isFinite h
    rw [limit, Binary.isInfinite_of_isFinite h, if_neg Bool.false_ne_true, Nat.lt_succ_iff,
      sortKey_le_sortKey hv hx]
    simp [Above, Binary.le, hx, hv]
  | excluded x =>
    rw [limit, sortKey_lt_sortKey hv h]
    simp [Above, Binary.lt, show x.isNaN = false from h, hv]

end Bound

end Corpus.Number
