import Corpus.Proofs.Number.Key
import Corpus.Proofs.Number.Neutral

/-! Counting with numbers that round: natural numbers below two to the power of the precision are added
without an error, and sums of numbers that are not negative stay so and are not changed by zero. -/

namespace Corpus.Number

namespace Format

variable {f : Format}

theorem units_mul_add {q : Nat} (hq : f.block ≤ q) (hq' : q < 2 * f.block) (k : Nat) :
    f.units (k * f.block + q) = q * 2 ^ k := by
  have hm : k * f.block + q = (q - f.block) + f.block * (k + 1) := by
    rw [Nat.mul_add, Nat.mul_comm k]
    omega
  have hr : q - f.block < f.block := by omega
  rw [units_of_le (Nat.le_trans hq (Nat.le_add_left ..)), hm, Nat.add_mul_mod_self_left,
    Nat.add_mul_div_left _ _ f.block_pos, Nat.mod_eq_of_lt hr, Nat.div_eq_of_lt hr, Nat.zero_add,
    Nat.add_sub_cancel, Nat.sub_add_cancel hq]

end Format

namespace Binary

theorem exists_units_eq {n : Nat} (hpos : 0 < n) (h : n < 2 ^ 53) :
    ∃ m, m < Format.double.infinity ∧ Format.double.units m = n * 2 ^ Format.double.scale := by
  have hblock : Format.double.block = 2 ^ 52 := rfl
  have hinf : Format.double.infinity = 2047 * 2 ^ 52 := rfl
  have hscale : Format.double.scale = 1074 := rfl
  have hlog : n.log2 < 53 := (Nat.log2_lt (Nat.ne_of_gt hpos)).2 h
  have hle : 2 ^ n.log2 ≤ n := Nat.log2_self_le (Nat.ne_of_gt hpos)
  have hlt : n < 2 ^ (n.log2 + 1) := Nat.lt_log2_self
  -- the significand is the count with its bits moved to the front
  have hq : 2 ^ 52 ≤ n * 2 ^ (52 - n.log2) := by
    calc 2 ^ 52 = 2 ^ n.log2 * 2 ^ (52 - n.log2) := by rw [← Nat.pow_add]; congr 1; omega
      _ ≤ n * 2 ^ (52 - n.log2) := Nat.mul_le_mul_right _ hle
  have hq' : n * 2 ^ (52 - n.log2) < 2 * 2 ^ 52 := by
    calc n * 2 ^ (52 - n.log2) < 2 ^ (n.log2 + 1) * 2 ^ (52 - n.log2) :=
          Nat.mul_lt_mul_of_pos_right hlt (Nat.two_pow_pos _)
      _ = 2 * 2 ^ 52 := by rw [← Nat.pow_add, ← Nat.pow_succ']; congr 1; omega
  refine ⟨(1022 + n.log2) * Format.double.block + n * 2 ^ (52 - n.log2), ?_, ?_⟩
  · rw [hinf, hblock]
    omega
  · rw [Format.units_mul_add (hblock ▸ hq) (hblock ▸ hq'), hscale, Nat.mul_assoc, ← Nat.pow_add]
    congr 2
    omega

theorem ofNat_eq_ofUnits (n : Nat) :
    (ofNat n : Binary64) = ofUnits (n * 2 ^ Format.double.scale : Nat) := by
  rw [ofNat, ofInt, Int.natCast_mul, Nat.one_shiftLeft]

theorem negative_ofUnits {f : Format} {n : Int} (h : 0 ≤ n) : (ofUnits n : Binary f).negative = false :=
  decide_eq_false (Int.not_lt.2 h)

theorem negative_ofNat (n : Nat) : (ofNat n : Binary64).negative = false := by
  rw [ofNat_eq_ofUnits, negative_ofUnits (Int.natCast_nonneg _)]

theorem units_ofNat {n : Nat} (h : n < 2 ^ 53) :
    (ofNat n : Binary64).isFinite ∧
      (ofNat n : Binary64).units = (n * 2 ^ Format.double.scale : Nat) := by
  cases Nat.eq_zero_or_pos n with
  | inl hn => rw [hn]; decide +kernel
  | inr hpos =>
    obtain ⟨m, hm, hu⟩ := exists_units_eq hpos h
    have hnearest := Format.nearest_units (f := .double) (by decide) (Nat.le_of_lt hm) Nat.one_pos
    rw [Nat.mul_one, hu] at hnearest
    rw [ofNat_eq_ofUnits, ofUnits, Int.natAbs_natCast, hnearest, decide_eq_false (by omega)]
    exact ⟨decide_eq_true hm, congrArg _ hu⟩

theorem ofNat_add_ofNat {m n : Nat} (hm : m < 2 ^ 53) (hn : n < 2 ^ 53) :
    (ofNat m : Binary64) + ofNat n = ofNat (m + n) := by
  show add (ofNat m) (ofNat n) = _
  obtain ⟨hmf, hmu⟩ := units_ofNat hm
  obtain ⟨hnf, hnu⟩ := units_ofNat hn
  have hsum : ((m * 2 ^ Format.double.scale : Nat) : Int) + (n * 2 ^ Format.double.scale : Nat) =
      ((m + n) * 2 ^ Format.double.scale : Nat) := by
    rw [Nat.add_mul, Int.natCast_add]
  rw [add, isNaN_of_isFinite hmf, isNaN_of_isFinite hnf, isInfinite_of_isFinite hmf,
    isInfinite_of_isFinite hnf, hmu, hnu, hsum, negative_ofNat, negative_ofNat,
    ofNat_eq_ofUnits (m + n)]
  simp only [Bool.false_eq_true, if_false]
  split
  next h =>
    rw [h]
    decide +kernel
  next => rfl

section

variable {x y : Binary64}

theorem units_nonneg (hx : x.negative = false) : 0 ≤ x.units := by
  rw [units, hx, if_neg Bool.false_ne_true]
  exact Int.natCast_nonneg _

theorem negative_add (hx : x.negative = false) (hy : y.negative = false) :
    (x + y).negative = false := by
  show (add x y).negative = false
  have hxu := units_nonneg hx
  have hyu := units_nonneg hy
  rw [add, hx, hy]
  simp only [bne_self_eq_false, Bool.and_false, Bool.false_eq_true, if_false]
  repeat' split
  · exact hx
  · exact hy
  · exact hx
  · exact hy
  · rfl
  · exact negative_ofUnits (Int.add_nonneg hxu hyu)

theorem add_zero (hx : x.negative = false) : x + 0 = x := by
  show add x 0 = x
  have hnan : (0 : Binary64).isNaN = false := by decide +kernel
  have hinf : (0 : Binary64).isInfinite = false := by decide +kernel
  have hzero : (0 : Binary64).units = 0 := by decide +kernel
  rw [add, hnan, hinf, hzero, hx, Int.add_zero]
  simp only [Bool.false_eq_true, if_false, Bool.false_and]
  split
  next => rfl
  next hn =>
    split
    next => rfl
    next =>
      split
      next h =>
        obtain ⟨negative, m⟩ := x
        obtain rfl : m = 0 := units_eq_zero.1 h
        rw [show negative = false from hx]
      next h =>
        have hle : x.magnitude ≤ Format.double.infinity := by simpa [isNaN] using hn
        exact ofUnits_units (by decide) hle h

end

end Binary

end Corpus.Number
