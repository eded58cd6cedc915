import Corpus.Number.Binary
import Mathlib.Algebra.GroupWithZero.Nat

/-! Numbers without a rounding error: a number is the nearest one to its own value, so that nothing is
lost by adding minus zero or by multiplying by one. -/

namespace Corpus.Number

namespace Format

variable {f : Format}

theorem roundHalfEven_mul (q : Nat) {den : Nat} (h : 0 < den) : roundHalfEven (q * den) den = q := by
  rw [roundHalfEven, Nat.mul_mod_left, Nat.mul_div_cancel q h, if_pos (.inl (by omega))]

theorem block_eq (f : Format) : f.block = 2 ^ (f.precision - 1) := Nat.one_shiftLeft _

theorem block_pos (f : Format) : 0 < f.block := by
  rw [block_eq]
  exact Nat.two_pow_pos _

theorem units_of_le {m : Nat} (h : f.block ≤ m) :
    f.units m = (m % f.block + f.block) * 2 ^ (m / f.block - 1) := by
  rw [units, if_neg (Nat.not_lt.2 h), Nat.shiftLeft_eq]

theorem units_eq_zero {m : Nat} : f.units m = 0 ↔ m = 0 := by
  by_cases h : m < f.block
  · rw [units, if_pos h]
  · have hb := Nat.not_lt.1 h
    have hpos : 0 < (m % f.block + f.block) * 2 ^ (m / f.block - 1) :=
      Nat.mul_pos (Nat.lt_of_lt_of_le f.block_pos (Nat.le_add_left ..)) (Nat.two_pow_pos _)
    have := f.block_pos
    rw [units_of_le hb]
    omega

theorem log2_units {m : Nat} (h : f.block ≤ m) :
    (f.units m).log2 = f.precision - 1 + (m / f.block - 1) := by
  have hne : f.units m ≠ 0 := by
    have := f.block_pos
    rw [Ne, units_eq_zero]
    omega
  have hr := Nat.mod_lt m f.block_pos
  rw [Nat.log2_eq_iff hne, units_of_le h]
  rw [block_eq] at hr ⊢
  constructor
  · rw [Nat.pow_add]
    exact Nat.mul_le_mul_right _ (Nat.le_add_left ..)
  · rw [Nat.add_right_comm, Nat.pow_add, Nat.pow_succ]
    exact Nat.mul_lt_mul_of_pos_right (by omega) (Nat.two_pow_pos _)

theorem shift_units (hp : 0 < f.precision) (m : Nat) :
    (f.units m).log2 + 1 - f.precision = m / f.block - 1 := by
  by_cases h : m < f.block
  · rw [units, if_pos h, Nat.div_eq_of_lt h]
    by_cases h0 : m = 0
    · rw [h0, Nat.log2_zero]
      omega
    · rw [block_eq] at h
      have := (Nat.log2_lt h0).2 h
      omega
  · rw [log2_units (Nat.not_lt.1 h)]
    omega

theorem nearest_units (hp : 0 < f.precision) {m den : Nat} (hm : m ≤ f.infinity) (hd : 0 < den) :
    f.nearest (f.units m * den) den = m := by
  rw [nearest, Nat.mul_div_cancel _ hd, shift_units hp]
  by_cases h : m < f.block
  · rw [units, if_pos h, Nat.div_eq_of_lt h]
    simp only [Nat.zero_sub, Nat.zero_mul, Nat.zero_add, Nat.shiftLeft_zero]
    rw [roundHalfEven_mul m hd, Nat.min_eq_left hm]
  · have hb := Nat.not_lt.1 h
    have he : 1 ≤ m / f.block := (Nat.one_le_div_iff f.block_pos).2 hb
    have hden : 0 < den <<< (m / f.block - 1) := by
      rw [Nat.shiftLeft_eq]
      exact Nat.mul_pos hd (Nat.two_pow_pos _)
    have hu : f.units m * den = (m % f.block + f.block) * (den <<< (m / f.block - 1)) := by
      rw [units_of_le hb, Nat.shiftLeft_eq]
      ac_rfl
    have hsum : (m / f.block - 1) * f.block + (m % f.block + f.block) = m := by
      have hmod := Nat.div_add_mod' m f.block
      have hle := Nat.mul_le_mul_right f.block he
      rw [Nat.sub_mul, Nat.one_mul]
      omega
    simp only [hu, roundHalfEven_mul _ hden, hsum, Nat.min_eq_left hm]

end Format

namespace Binary

variable {f : Format}

theorem units_eq_zero {x : Binary f} : x.units = 0 ↔ x.magnitude = 0 := by
  rw [units, ← Format.units_eq_zero (f := f)]
  split <;> omega

theorem ofUnits_units (hp : 0 < f.precision) {x : Binary f} (hx : x.magnitude ≤ f.infinity)
    (h : x.units ≠ 0) : ofUnits x.units = x := by
  obtain ⟨negative, m⟩ := x
  have hn := Format.nearest_units hp hx Nat.one_pos
  rw [Nat.mul_one] at hn
  have hm : f.units m ≠ 0 := fun h0 => h (units_eq_zero.2 (Format.units_eq_zero.1 h0))
  cases negative with
  | false =>
    have hu : units ⟨false, m⟩ = (f.units m : Int) := rfl
    rw [ofUnits, hu, Int.natAbs_natCast, hn, decide_eq_false (by omega)]
  | true =>
    have hu : units ⟨true, m⟩ = -(f.units m : Int) := rfl
    rw [ofUnits, hu, Int.natAbs_neg, Int.natAbs_natCast, hn, decide_eq_true (by omega)]

theorem negZero_add (x : Binary32) : negZero + x = x := by
  show add negZero x = x
  have hnan : (negZero : Binary32).isNaN = false := rfl
  have hinf : (negZero : Binary32).isInfinite = false := by decide
  have hzero : (negZero : Binary32).units = 0 := by decide
  rw [add, hnan, hinf, hzero, Int.zero_add]
  simp only [Bool.false_eq_true, if_false]
  split
  next => rfl
  next hx =>
    split
    next => rfl
    next =>
      split
      next h =>
        obtain ⟨negative, m⟩ := x
        obtain rfl : m = 0 := units_eq_zero.1 h
        rfl
      next h =>
        have hle : x.magnitude ≤ Format.single.infinity := by simpa [isNaN] using hx
        exact ofUnits_units (by decide) hle h

theorem mul_one (x : Binary32) : x * 1 = x := by
  show mul x 1 = x
  have hnan : (1 : Binary32).isNaN = false := by decide +kernel
  have hinf : (1 : Binary32).isInfinite = false := by decide +kernel
  have hzero : (1 : Binary32).isZero = false := by decide +kernel
  have hnegative : (1 : Binary32).negative = false := by decide +kernel
  have hunits : Format.single.units (1 : Binary32).magnitude = 1 <<< Format.single.scale := by
    decide +kernel
  rw [mul, hnan, hinf, hzero, hnegative, hunits]
  simp only [Bool.false_eq_true, if_false, Bool.and_false, Bool.or_false, Bool.bne_false]
  split
  next => rfl
  next hx =>
    have hle : x.magnitude ≤ Format.single.infinity := by simpa [isNaN] using hx
    split
    next hi =>
      obtain ⟨negative, m⟩ := x
      obtain rfl : m = Format.single.infinity := of_decide_eq_true hi
      rfl
    next => rw [Format.nearest_units (by decide) hle (by decide)]

theorem sum_cons_zeros {x : Binary32} (hx : x + 0 = x) {ys : List Binary32} (hy : ∀ y ∈ ys, y = 0) :
    sum (x :: ys) = x := by
  have hneg : add negZero x = x := negZero_add x
  rw [sum, List.foldl_cons, hneg]
  induction ys with
  | nil => rfl
  | cons y rest ih =>
    have hadd : add x 0 = x := hx
    rw [List.forall_mem_cons] at hy
    rw [List.foldl_cons, hy.1, hadd, ih hy.2]

theorem sum_zeros {xs : List Binary32} (hne : xs ≠ []) (hx : ∀ x ∈ xs, x = 0) : sum xs = 0 := by
  cases xs with
  | nil => exact absurd rfl hne
  | cons x rest =>
    rw [List.forall_mem_cons] at hx
    rw [hx.1]
    exact sum_cons_zeros (by decide +kernel) hx.2

theorem eq_one_of_eq {x : Binary32} (h : x.eq 1 = true) : x = 1 := by
  have hone : (1 : Binary32) = ⟨false, 127 * 2 ^ 23⟩ := by decide +kernel
  obtain ⟨negative, m⟩ := x
  simp only [hone, eq, rank, Bool.and_eq_true, decide_eq_true_eq] at h ⊢
  cases negative with
  | false =>
    have hm : (m : Int) = 127 * 2 ^ 23 := by simpa using h.2
    congr
    omega
  | true =>
    have hm : -(m : Int) = 127 * 2 ^ 23 := by simpa using h.2
    omega

end Binary

end Corpus.Number
