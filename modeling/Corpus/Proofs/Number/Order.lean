import Corpus.Proofs.Number.Rounding
import Mathlib.Algebra.Order.Field.Rat
import Mathlib.Algebra.Order.Ring.Cast
import Mathlib.Order.WithBot
import Mathlib.Tactic.Positivity

/-! The order of the numbers is that of what they stand for, and keys made of their bits keep it. -/

namespace Corpus.Number

namespace Format

variable {f : Format}

theorem units_lt_units (hp : 0 < f.precision) {m n : Nat} (h : m < n) (hn : n ≤ f.infinity) :
    f.units m < f.units n := by
  refine Nat.lt_of_not_le fun hle => ?_
  have hmono := nearest_mono hp hle 1
  have hnearest {k : Nat} (hk : k ≤ f.infinity) : f.nearest (f.units k) 1 = k := by
    simpa using nearest_units hp hk Nat.one_pos
  rw [hnearest hn, hnearest (Nat.le_of_lt (Nat.lt_of_lt_of_le h hn))] at hmono
  omega

end Format

namespace Binary

variable {f : Format} {x y : Binary f}

theorem units_lt_units (hp : 0 < f.precision) (hx : x.isNaN = false) (hy : y.isNaN = false)
    (h : x.rank < y.rank) : x.units < y.units := by
  have hmx : x.magnitude ≤ f.infinity := by simpa [isNaN] using hx
  have hmy : y.magnitude ≤ f.infinity := by simpa [isNaN] using hy
  rw [rank, rank] at h
  rw [units, units]
  cases hnx : x.negative <;> cases hny : y.negative <;>
    simp only [hnx, hny, if_true, Bool.false_eq_true, if_false] at h ⊢
  · have := Format.units_lt_units hp (by omega : x.magnitude < y.magnitude) hmy
    omega
  · omega
  · -- one of the two is not zero
    have hzx := Format.units_eq_zero (f := f) (m := x.magnitude)
    have hzy := Format.units_eq_zero (f := f) (m := y.magnitude)
    omega
  · have := Format.units_lt_units hp (by omega : y.magnitude < x.magnitude) hmx
    omega

theorem units_eq_of_rank_eq (h : x.rank = y.rank) : x.units = y.units := by
  have hz := Format.units_eq_zero (f := f) (m := 0)
  rw [rank, rank] at h
  rw [units, units]
  cases hnx : x.negative <;> cases hny : y.negative <;>
    simp only [hnx, hny, if_true, Bool.false_eq_true, if_false] at h ⊢
  · rw [show x.magnitude = y.magnitude by omega]
  · rw [show x.magnitude = 0 by omega, show y.magnitude = 0 by omega]
    omega
  · rw [show x.magnitude = 0 by omega, show y.magnitude = 0 by omega]
    omega
  · rw [show x.magnitude = y.magnitude by omega]

def value (x : Binary f) : WithBot (WithTop ℚ) :=
  if x.isFinite then (((x.units : ℚ) / 2 ^ f.scale : ℚ) : WithTop ℚ)
  else if x.negative then ⊥ else ⊤

theorem value_of_isFinite (hx : x.isFinite) :
    x.value = (((x.units : ℚ) / 2 ^ f.scale : ℚ) : WithTop ℚ) := if_pos hx

example : (⟨true, 0x3ff8000000000000⟩ : Binary64).value = ((-3 / 2 : ℚ) : WithTop ℚ) := by decide +kernel

theorem value_infinity (negative : Bool) :
    (infinity negative : Binary f).value = if negative then ⊥ else ⊤ := by
  have hf : (infinity negative : Binary f).isFinite = false := decide_eq_false (Nat.lt_irrefl _)
  rw [value, hf, if_neg Bool.false_ne_true]
  rfl

theorem rank_infinity (negative : Bool) :
    (infinity negative : Binary f).rank = if negative then -(f.infinity : Int) else f.infinity := rfl

theorem isFinite_or_eq_infinity (hx : x.isNaN = false) :
    x.isFinite ∨ x = infinity true ∨ x = infinity false := by
  cases hf : x.isFinite with
  | true => exact .inl rfl
  | false =>
    have heq := eq_infinity hx hf
    cases hn : x.negative with
    | true => exact .inr (.inl (hn ▸ heq))
    | false => exact .inr (.inr (hn ▸ heq))

theorem rank_lt_infinity (hx : x.isFinite) : -(f.infinity : Int) < x.rank ∧ x.rank < f.infinity := by
  have hm : x.magnitude < f.infinity := of_decide_eq_true hx
  rw [rank]
  split <;> omega

theorem value_lt_of_rank_lt (hp : 0 < f.precision) (hx : x.isNaN = false) (hy : y.isNaN = false)
    (h : x.rank < y.rank) : x.value < y.value := by
  have hunits := units_lt_units hp hx hy h
  have hry := rank_le_infinity hy
  rcases isFinite_or_eq_infinity hx with hfx | rfl | rfl
  · have hrx := rank_lt_infinity hfx
    rw [value_of_isFinite hfx]
    rcases isFinite_or_eq_infinity hy with hfy | rfl | rfl
    · rw [value_of_isFinite hfy, WithBot.coe_lt_coe, WithTop.coe_lt_coe]
      exact div_lt_div_of_pos_right (Int.cast_lt.2 hunits) (by positivity)
    · rw [rank_infinity, if_pos rfl] at h
      omega
    · rw [value_infinity, if_neg Bool.false_ne_true]
      exact WithBot.coe_lt_coe.2 (WithTop.coe_lt_top _)
  · rw [value_infinity, if_pos rfl]
    rcases isFinite_or_eq_infinity hy with hfy | rfl | rfl
    · rw [value_of_isFinite hfy]
      exact WithBot.bot_lt_coe _
    · exact absurd h (Int.lt_irrefl _)
    · rw [value_infinity, if_neg Bool.false_ne_true]
      exact WithBot.bot_lt_coe _
  · rw [rank_infinity, if_neg Bool.false_ne_true] at h
    omega

theorem value_eq_of_rank_eq (hpos : 0 < f.infinity) (h : x.rank = y.rank) : x.value = y.value := by
  have hunits := units_eq_of_rank_eq h
  rw [rank, rank] at h
  rw [value, value, hunits]
  by_cases hz : x.magnitude = 0 ∧ y.magnitude = 0
  · simp [isFinite, hz, hpos]
  · have hxy : x.negative = y.negative ∧ x.magnitude = y.magnitude := by
      cases hnx : x.negative <;> cases hny : y.negative <;>
        simp only [hnx, hny, if_true, Bool.false_eq_true, if_false, reduceCtorEq, true_and, false_and]
          at h ⊢ <;> omega
    rw [isFinite, isFinite, hxy.1, hxy.2]

theorem lt_iff_value_lt (hp : 0 < f.precision) (hpos : 0 < f.infinity) (hx : x.isNaN = false)
    (hy : y.isNaN = false) : x.lt y ↔ x.value < y.value := by
  rw [lt_iff hx hy]
  constructor
  · exact value_lt_of_rank_lt hp hx hy
  · intro h
    rcases Int.lt_trichotomy x.rank y.rank with hlt | heq | hgt
    · exact hlt
    · exact absurd (value_eq_of_rank_eq hpos heq) h.ne
    · exact absurd (value_lt_of_rank_lt hp hy hx hgt) h.not_gt

theorem eq_iff_value_eq (hp : 0 < f.precision) (hpos : 0 < f.infinity) (hx : x.isNaN = false)
    (hy : y.isNaN = false) : x.eq y ↔ x.value = y.value := by
  rw [eq_iff hx hy]
  constructor
  · exact value_eq_of_rank_eq hpos
  · intro h
    rcases Int.lt_trichotomy x.rank y.rank with hlt | heq | hgt
    · exact absurd h (value_lt_of_rank_lt hp hx hy hlt).ne
    · exact heq
    · exact absurd h.symm (value_lt_of_rank_lt hp hy hx hgt).ne

end Binary

def numberOf (bits : BitVec 64) : Binary64 := .ofBits bits.toNat

/-- The key of a number by its bits: of a negative one they are all turned, of others that of the sign,
after minus zero has become zero. -/
def keyOf (bits : BitVec 64) : BitVec 64 :=
  let bits := if (numberOf bits).eq .zero then 0#64 else bits
  if bits.msb then ~~~bits else bits ||| 1#64 <<< 63

section

variable (bits : BitVec 64)

theorem negative_numberOf : (numberOf bits).negative = bits.msb := by
  rw [BitVec.msb_eq_getLsbD_last]
  rfl

theorem magnitude_numberOf : (numberOf bits).magnitude = bits.toNat % 2 ^ 63 := rfl

theorem eq_zero_numberOf : (numberOf bits).eq .zero ↔ (numberOf bits).isZero := by
  rw [Binary.isZero, decide_eq_true_eq]
  cases hn : (numberOf bits).isNaN with
  | false =>
    rw [Binary.eq_iff hn (by decide), show (Binary.zero : Binary64).rank = 0 from rfl, Binary.rank]
    split <;> omega
  | true =>
    have hm : Format.double.infinity < (numberOf bits).magnitude := of_decide_eq_true hn
    rw [Binary.eq, hn]
    simp
    omega

theorem toNat_keyOf : (keyOf bits).toNat = sortKey (numberOf bits) := by
  have hlt := bits.isLt
  have hkey : middleKey = 2 ^ 63 := by decide
  rw [keyOf, sortKey, hkey]
  split
  next hz =>
    rw [if_pos ((eq_zero_numberOf bits).1 hz)]
    decide
  next hz =>
    rw [if_neg (mt (eq_zero_numberOf bits).2 hz), negative_numberOf, magnitude_numberOf]
    have hmsb := BitVec.msb_eq_decide bits
    cases hm : bits.msb with
    | true =>
      have hle : 2 ^ 63 ≤ bits.toNat := of_decide_eq_true (hmsb.symm.trans hm)
      rw [if_pos rfl, if_pos rfl, BitVec.toNat_not]
      omega
    | false =>
      have hgt : ¬ 2 ^ 63 ≤ bits.toNat := of_decide_eq_false (hmsb.symm.trans hm)
      have hor := Nat.two_pow_add_eq_or_of_lt (i := 63) (by omega : bits.toNat < 2 ^ 63) 1
      rw [if_neg Bool.false_ne_true, if_neg Bool.false_ne_true, BitVec.toNat_or, Nat.or_comm]
      rw [show (1#64 <<< 63).toNat = 2 ^ 63 * 1 from rfl, ← hor]
      omega

end

/-- The keys of two numbers are ordered as these are, minus zero being zero. -/
theorem keyOf_embeds {a b : BitVec 64} (ha : (numberOf a).isNaN = false)
    (hb : (numberOf b).isNaN = false) :
    ((numberOf a).value < (numberOf b).value ↔ keyOf a < keyOf b) ∧
      ((numberOf a).value = (numberOf b).value ↔ keyOf a = keyOf b) ∧
      ((numberOf a).lt (numberOf b) ↔ (numberOf a).value < (numberOf b).value) ∧
      ((numberOf a).eq (numberOf b) ↔ (numberOf a).value = (numberOf b).value) ∧
      sortKey (numberOf a) = (keyOf a).toNat := by
  have hlt := Binary.lt_iff_value_lt (by decide) (by decide) ha hb
  have heq := Binary.eq_iff_value_eq (by decide) (by decide) ha hb
  refine ⟨?_, ?_, hlt, heq, (toNat_keyOf a).symm⟩
  · rw [← hlt, Binary.lt_iff ha hb, ← sortKey_lt_sortKey ha hb, BitVec.lt_def, toNat_keyOf, toNat_keyOf]
  · rw [← heq, Binary.eq_iff_le ha hb, Binary.le_iff ha hb, Binary.le_iff hb ha,
      ← sortKey_le_sortKey ha hb, ← sortKey_le_sortKey hb ha, ← BitVec.toNat_inj, toNat_keyOf,
      toNat_keyOf]
    omega

theorem keyOf_embeds_subnormal :
    (numberOf 0x8000000000000001#64).value < (numberOf 0x7ff0000000000000#64).value ∧
      keyOf 0x8000000000000001#64 = 0x7ffffffffffffffe#64 := by
  have h := keyOf_embeds (a := 0x8000000000000001#64) (b := 0x7ff0000000000000#64) (by decide) (by decide)
  exact ⟨h.1.2 (by decide), by decide⟩

end Corpus.Number
