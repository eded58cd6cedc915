import Corpus.Proofs.Number.Counting
import Corpus.Proofs.Number.Reading
import Corpus.Record

/-! Rounding keeps the order of integers, though it may make two of them one.  Whether it tells an integer
from the ones below it can be seen at the one before it. -/

namespace Corpus.Number

namespace Format

variable {f : Format}

theorem div_le_roundHalfEven (num den : Nat) : num / den ≤ roundHalfEven num den := by
  rw [roundHalfEven]
  split <;> omega

theorem roundHalfEven_mono {a b : Nat} (h : a ≤ b) (den : Nat) :
    roundHalfEven a den ≤ roundHalfEven b den := by
  have hq : a / den ≤ b / den := Nat.div_le_div_right h
  by_cases hlt : a / den < b / den
  · calc roundHalfEven a den ≤ a / den + 1 := roundHalfEven_le a den
      _ ≤ b / den := hlt
      _ ≤ roundHalfEven b den := div_le_roundHalfEven b den
  · -- the quotients are the same, and what is left over decides
    have heq : a / den = b / den := by omega
    have ha := Nat.div_add_mod a den
    have hb := Nat.div_add_mod b den
    rw [heq] at ha
    have hmod : a % den ≤ b % den := by omega
    rw [roundHalfEven, roundHalfEven, heq]
    split <;> split <;> omega

theorem div_shiftLeft (num den shift : Nat) : num / (den <<< shift) = num / den / 2 ^ shift := by
  rw [Nat.shiftLeft_eq, Nat.div_div_eq_div_mul]

theorem div_shiftLeft_lt (hp : 0 < f.precision) (num den : Nat) :
    num / (den <<< ((num / den).log2 + 1 - f.precision)) < 2 * f.block := by
  rw [div_shiftLeft, two_mul_block hp, Nat.div_lt_iff_lt_mul (Nat.two_pow_pos _), ← Nat.pow_add]
  exact Nat.lt_of_lt_of_le Nat.lt_log2_self (Nat.pow_le_pow_right (by decide) (by omega))

theorem block_le_div_shiftLeft (hp : 0 < f.precision) {num den : Nat}
    (hs : 0 < (num / den).log2 + 1 - f.precision) :
    f.block ≤ num / (den <<< ((num / den).log2 + 1 - f.precision)) := by
  have hne : num / den ≠ 0 := by
    intro h
    rw [h, Nat.log2_zero] at hs
    omega
  rw [div_shiftLeft, block_eq, Nat.le_div_iff_mul_le (Nat.two_pow_pos _), ← Nat.pow_add]
  refine Nat.le_trans (Nat.pow_le_pow_right (by decide) ?_) (Nat.log2_self_le hne)
  generalize (num / den).log2 = k at hs ⊢
  omega

theorem log2_mono {a b : Nat} (h : a ≤ b) : a.log2 ≤ b.log2 := by
  by_cases h0 : a = 0
  · rw [h0, Nat.log2_zero]
    exact Nat.zero_le _
  · exact (Nat.le_log2 (by omega)).2 (Nat.le_trans (Nat.log2_self_le h0) h)

theorem nearest_mono (hp : 0 < f.precision) {a b : Nat} (h : a ≤ b) (den : Nat) :
    f.nearest a den ≤ f.nearest b den := by
  have hlog := log2_mono (Nat.div_le_div_right (c := den) h)
  have ha := div_shiftLeft_lt hp a den
  have hb := @block_le_div_shiftLeft f hp b den
  have hra := roundHalfEven_le a (den <<< ((a / den).log2 + 1 - f.precision))
  have hrb := div_le_roundHalfEven b (den <<< ((b / den).log2 + 1 - f.precision))
  rw [nearest, nearest]
  refine Nat.le_min.2 ⟨Nat.le_trans (Nat.min_le_left ..) ?_, Nat.min_le_right ..⟩
  by_cases hshift : (a / den).log2 + 1 - f.precision = (b / den).log2 + 1 - f.precision
  · rw [hshift]
    exact Nat.add_le_add_left (roundHalfEven_mono h _) _
  · have hlt : (a / den).log2 + 1 - f.precision < (b / den).log2 + 1 - f.precision := by omega
    generalize (a / den).log2 + 1 - f.precision = i at *
    generalize (b / den).log2 + 1 - f.precision = j at *
    calc i * f.block + roundHalfEven a (den <<< i)
        ≤ i * f.block + 2 * f.block := Nat.add_le_add_left (Nat.le_trans hra ha) _
      _ = (i + 1) * f.block + f.block := by rw [Nat.add_mul, Nat.one_mul, Nat.two_mul, Nat.add_assoc]
      _ ≤ j * f.block + f.block := Nat.add_le_add_right (Nat.mul_le_mul_right _ hlt) _
      _ ≤ j * f.block + roundHalfEven b (den <<< j) :=
        Nat.add_le_add_left (Nat.le_trans (hb (by omega)) hrb) _

theorem nearest_zero (hp : 0 < f.precision) : f.nearest 0 1 = 0 := by
  have h := nearest_units hp (Nat.zero_le f.infinity) Nat.one_pos
  rwa [units_eq_zero.2 rfl] at h

end Format

namespace Binary

section

variable {f : Format}

theorem isNaN_ofUnits (n : Int) : (ofUnits n : Binary f).isNaN = false :=
  decide_eq_false (Nat.not_lt.2 (Nat.min_le_right ..))

theorem isNaN_ofInt (n : Int) : (ofInt n : Binary f).isNaN = false := isNaN_ofUnits _

theorem rank_ofUnits_neg (hp : 0 < f.precision) (n : Int) :
    (ofUnits (-n) : Binary f).rank = -(ofUnits n : Binary f).rank := by
  rw [rank, rank, ofUnits, ofUnits, Int.natAbs_neg]
  simp only [decide_eq_true_eq]
  by_cases h0 : n = 0
  · rw [h0, Int.natAbs_zero, Format.nearest_zero hp]
    rfl
  · split <;> split <;> omega

theorem rank_ofInt_neg (hp : 0 < f.precision) (n : Int) :
    (ofInt (-n) : Binary f).rank = -(ofInt n : Binary f).rank := by
  rw [ofInt, ofInt, Int.neg_mul, rank_ofUnits_neg hp]

theorem rank_ofUnits_mono (hp : 0 < f.precision) {m n : Int} (h : m ≤ n) :
    (ofUnits m : Binary f).rank ≤ (ofUnits n : Binary f).rank := by
  rw [rank, rank, ofUnits, ofUnits]
  simp only [decide_eq_true_eq]
  split <;> split
  · have := Format.nearest_mono hp (show n.natAbs ≤ m.natAbs by omega) 1
    omega
  · omega
  · omega
  · have := Format.nearest_mono hp (show m.natAbs ≤ n.natAbs by omega) 1
    omega

theorem rank_ofInt_mono (hp : 0 < f.precision) {m n : Int} (h : m ≤ n) :
    (ofInt m : Binary f).rank ≤ (ofInt n : Binary f).rank :=
  rank_ofUnits_mono hp (Int.mul_le_mul_of_nonneg_right h (Int.natCast_nonneg _))

end

theorem eq_of_rank_eq {f : Format} {x y : Binary f} (hx : x.negative = false) (hy : y.negative = false)
    (h : x.rank = y.rank) : x = y := by
  obtain ⟨negative, m⟩ := x
  obtain ⟨negative', n⟩ := y
  cases hx
  cases hy
  exact congrArg (Binary.mk false) (Int.ofNat.inj h)

theorem rank_ofInt_lt_succ {n : Nat} (h : n < 2 ^ 53) :
    (ofInt n : Binary64).rank < (ofInt (n + 1 : Nat) : Binary64).rank := by
  by_cases hlast : n = 2 ^ 53 - 1
  · rw [hlast]
    decide +kernel
  · have hle := rank_ofInt_mono (f := .double) (by decide) (show (n : Int) ≤ (n + 1 : Nat) by omega)
    refine Int.lt_iff_le_and_ne.2 ⟨hle, fun heq => ?_⟩
    have hsame : (ofNat n : Binary64) = ofNat (n + 1) :=
      eq_of_rank_eq (negative_ofNat n) (negative_ofNat (n + 1)) heq
    have hunits := congrArg units hsame
    rw [(units_ofNat h).2, (units_ofNat (by omega : n + 1 < 2 ^ 53)).2, Int.ofNat_inj] at hunits
    have := Nat.eq_of_mul_eq_mul_right (Nat.two_pow_pos _) hunits
    omega

/-- Whether rounding tells an integer of 64 bits from all before it. -/
def Sharp (n : Int) : Prop := n = timeMin ∨ (ofInt (n - 1) : Binary64).lt (ofInt n)

instance (n : Int) : Decidable (Sharp n) :=
  inferInstanceAs (Decidable (n = timeMin ∨ (ofInt (n - 1) : Binary64).lt (ofInt n)))

theorem Sharp.rank_lt {n t : Int} (h : Sharp n) (ht : timeMin ≤ t) (hlt : t < n) :
    (ofInt t : Binary64).rank < (ofInt n : Binary64).rank := by
  cases h with
  | inl h => omega
  | inr h =>
    calc (ofInt t : Binary64).rank ≤ (ofInt (n - 1) : Binary64).rank :=
          rank_ofInt_mono (by decide) (by omega)
      _ < (ofInt n : Binary64).rank := (lt_iff (isNaN_ofInt _) (isNaN_ofInt _)).1 h

theorem Sharp.le_ofInt_iff {n t : Int} (h : Sharp n) (ht : timeMin ≤ t) :
    (ofInt n : Binary64).le (ofInt t) ↔ n ≤ t := by
  rw [le_iff (isNaN_ofInt _) (isNaN_ofInt _)]
  refine ⟨fun hle => Int.not_lt.1 fun hlt => ?_, rank_ofInt_mono (by decide)⟩
  exact Int.not_le.2 (h.rank_lt ht hlt) hle

theorem Sharp.ofInt_lt_iff {n t : Int} (h : Sharp n) (ht : timeMin ≤ t) :
    (ofInt t : Binary64).lt (ofInt n) ↔ t < n := by
  rw [lt_iff (isNaN_ofInt _) (isNaN_ofInt _)]
  refine ⟨fun hlt => Int.not_le.1 fun hle => ?_, h.rank_lt ht⟩
  exact Int.not_le.2 hlt (rank_ofInt_mono (by decide) hle)

theorem sharp_of_small {n : Int} (hl : -9007199254740992 < n) (hu : n ≤ 9007199254740992) :
    Sharp n := by
  refine .inr ((lt_iff (isNaN_ofInt _) (isNaN_ofInt _)).2 ?_)
  by_cases hpos : 0 < n
  · have h := rank_ofInt_lt_succ (n := (n - 1).toNat) (by omega)
    rwa [show ((n - 1).toNat : Int) = n - 1 by omega,
      show (((n - 1).toNat + 1 : Nat) : Int) = n by omega] at h
  · have h := rank_ofInt_lt_succ (n := (-n).toNat) (by omega)
    rw [show ((-n).toNat : Int) = -n by omega, rank_ofInt_neg (by decide),
      show (((-n).toNat + 1 : Nat) : Int) = -(n - 1) by omega, rank_ofInt_neg (by decide)] at h
    omega

example : ¬Sharp 9007199254740993 := by decide +kernel

end Binary

end Corpus.Number
