import Corpus.Index.Interval
import Corpus.Proofs.Index.Numbers
import Corpus.Proofs.Number.Key

/-! The index of numbers after any additions and removals: a tree is never asked what it refuses, and a
range holds the documents with a number between the bounds. -/

namespace Corpus

open Number

namespace KeyEnd

theorem isRefused_of_not_isVoid {lower upper : KeyEnd} (h : lower.isVoid upper = false) :
    lower.isRefused upper = false := by
  cases lower <;> cases upper <;> simp only [isVoid, isRefused, decide_eq_false_iff_not] at h ⊢ <;> omega

theorem not_admits_of_isVoid {lower upper : KeyEnd} (h : lower.isVoid upper) (key : Nat) :
    ¬(lower.startsBy key ∧ upper.endsBy key) := by
  cases lower <;> cases upper <;> simp [isVoid, startsBy, endsBy] at h ⊢ <;> omega

end KeyEnd

namespace Number

theorem sortKey_eq_sortKey {x y : Binary64} (hy : y.isNaN = false) :
    sortKey x = sortKey y ↔ x.eq y := by
  cases hx : x.isNaN with
  | false =>
    have hlt := sortKey_lt_sortKey hx hy
    have hgt := sortKey_lt_sortKey hy hx
    simp only [Binary.eq, hx, hy, Bool.not_false, Bool.true_and, decide_eq_true_eq]
    omega
  | true =>
    have hm := magnitude_lt_middleKey hy
    have hinf : Format.double.infinity < middleKey - 1 := by decide
    simp only [Binary.isNaN, decide_eq_true_eq, decide_eq_false_iff_not] at hx hy
    simp only [Binary.eq, Binary.isNaN, hx, decide_true, Bool.not_true, Bool.false_and,
      Bool.false_eq_true, iff_false]
    rw [sortKey, sortKey, Binary.isZero, Binary.isZero]
    simp only [decide_eq_true_eq]
    repeat' split
    all_goals omega

namespace Bound

def IsNumber : Bound → Prop
  | .unbounded => True
  | .included x => x.isNaN = false
  | .excluded x => x.isNaN = false

instance (b : Bound) : Decidable b.IsNumber :=
  match b with
  | .unbounded => .isTrue trivial
  | .included x => inferInstanceAs (Decidable (x.isNaN = false))
  | .excluded x => inferInstanceAs (Decidable (x.isNaN = false))

theorem startsBy_keyEnd (b : Bound) (key : Nat) : b.keyEnd.startsBy key = decide (b.least ≤ key) := by
  cases b with
  | unbounded => simp [keyEnd, least, KeyEnd.startsBy]
  | included x =>
    rw [keyEnd, least]
    split
    next => split <;> simp [KeyEnd.startsBy]
    next => rfl
  | excluded x => rfl

theorem endsBy_keyEnd (b : Bound) {key : Nat} (hk : key < UInt64.size) :
    b.keyEnd.endsBy key = decide (key < b.limit) := by
  cases b with
  | unbounded => simp [keyEnd, limit, KeyEnd.endsBy, hk]
  | included x =>
    rw [keyEnd, limit]
    split
    next =>
      have hlast : key ≤ UInt64.size - 1 := Nat.le_sub_one_of_lt hk
      split
      next => simp [KeyEnd.endsBy, hk]
      next => rw [KeyEnd.endsBy, decide_eq_true hlast, decide_eq_true hk]
    next => rw [KeyEnd.endsBy, decide_eq_decide, Nat.lt_succ_iff]
  | excluded x => rfl

theorem sortKey_lt_least_infinity {v : Binary64} (hv : v.isNaN = false) :
    sortKey v < (included (.infinity false)).least := by
  have hinf : Format.double.infinity < middleKey - 1 := by decide
  have hleast : (included (.infinity false)).least = middleKey + (middleKey - 1) := by decide
  simp only [Binary.isNaN, decide_eq_false_iff_not] at hv
  rw [hleast, sortKey]
  split
  next => omega
  next => split <;> omega

theorem least_le_iff {b : Bound} (h : b.IsNumber) (hne : b ≠ .included (.infinity false))
    {v : Binary64} (hv : v.isNaN = false) : b.least ≤ sortKey v ↔ b.Below v := by
  cases b with
  | unbounded => exact least_le_sortKey (b := .unbounded) trivial hv
  | excluded x => exact least_le_sortKey (b := .excluded x) h hv
  | included x =>
    cases hf : x.isFinite with
    | true => exact least_le_sortKey (b := .included x) hf hv
    | false =>
      rw [Binary.eq_infinity h hf] at hne ⊢
      generalize x.negative = negative at hne ⊢
      cases negative with
      | false => exact absurd rfl hne
      | true => exact iff_of_true (Nat.zero_le _) (Binary.neg_infinity_le hv)

theorem lt_limit_iff {b : Bound} (h : b.IsNumber) (hne : b ≠ .included (.infinity true))
    {v : Binary64} (hv : v.isNaN = false) : sortKey v < b.limit ↔ b.Above v := by
  cases b with
  | unbounded => exact sortKey_lt_limit (b := .unbounded) trivial hv
  | excluded x => exact sortKey_lt_limit (b := .excluded x) h hv
  | included x =>
    cases hf : x.isFinite with
    | true => exact sortKey_lt_limit (b := .included x) hf hv
    | false =>
      rw [Binary.eq_infinity h hf] at hne ⊢
      generalize x.negative = negative at hne ⊢
      cases negative with
      | false => exact iff_of_true (sortKey_lt_size hv) (Binary.le_infinity hv)
      | true => exact absurd rfl hne

end Bound

end Number

namespace NumberIndex

inductive Edit
  | add (doc : Nat) (field : String) (x : Binary64)
  | remove (doc : Nat) (field : String) (x : Binary64)
  deriving DecidableEq

structure Holding where
  doc : Nat
  field : String
  value : Binary64
  deriving DecidableEq

namespace Edit

def apply (n : NumberIndex) : Edit → NumberIndex
  | .add doc field x => n.add doc field x
  | .remove doc field x => n.remove doc field x

def leave (held : List Holding) : Edit → List Holding
  | .add doc field x => if x.isNaN then held else ⟨doc, field, x⟩ :: held
  | .remove doc field x => held.filter fun h => !(h.doc = doc && h.field = field && x.eq h.value)

end Edit

def edited (edits : List Edit) : NumberIndex := edits.foldl Edit.apply .empty

def held (edits : List Edit) : List Holding := edits.foldl Edit.leave []

structure Holds (n : NumberIndex) (held : List Holding) : Prop where
  isNumber {h : Holding} (hm : h ∈ held) : h.value.isNaN = false
  mem_docsAt {doc : Nat} {field : String} {key : Nat} :
    doc ∈ n.docsAt field key ↔ ∃ v, ⟨doc, field, v⟩ ∈ held ∧ sortKey v = key

theorem Holds.empty : NumberIndex.empty.Holds [] where
  isNumber := nofun
  mem_docsAt := by simp [NumberIndex.mem_docsAt, NumberIndex.empty]

theorem Holds.apply {n : NumberIndex} {held : List Holding} (h : n.Holds held) (e : Edit) :
    (e.apply n).Holds (e.leave held) := by
  cases e with
  | add doc field x =>
    rw [Edit.apply, Edit.leave]
    cases hx : x.isNaN with
    | true =>
      rw [add, hx]
      exact h
    | false =>
      refine ⟨fun hm => ?_, fun {doc' field' key} => ?_⟩
      · cases hm with
        | head => exact hx
        | tail _ hm => exact h.isNumber hm
      · rw [mem_docsAt_add, h.mem_docsAt]
        simp only [hx, true_and, Bool.false_eq_true, if_false, List.mem_cons, Holding.mk.injEq,
          or_and_right, exists_or]
        refine or_congr_left ⟨?_, ?_⟩
        · rintro ⟨rfl, rfl, rfl⟩
          exact ⟨x, ⟨rfl, rfl, rfl⟩, rfl⟩
        · rintro ⟨_, ⟨rfl, rfl, rfl⟩, rfl⟩
          exact ⟨rfl, rfl, rfl⟩
  | remove doc field x =>
    refine ⟨fun hm => h.isNumber (List.mem_filter.1 hm).1, fun {doc' field' key} => ?_⟩
    rw [Edit.apply, mem_docsAt_remove, h.mem_docsAt, ← exists_and_right]
    refine exists_congr fun v => ?_
    rw [Edit.leave, List.mem_filter, and_right_comm]
    refine and_congr_left fun hkey => and_congr_right fun hm => ?_
    subst hkey
    have heq := sortKey_eq_sortKey (x := x) (h.isNumber hm)
    rw [eq_comm] at heq
    rw [Bool.not_eq_true', ← Bool.not_eq_true, Bool.and_eq_true, Bool.and_eq_true, decide_eq_true_eq,
      decide_eq_true_eq, heq, and_assoc]

theorem holds_edited (edits : List Edit) : (edited edits).Holds (held edits) := by
  suffices ∀ n h, Holds n h → (edits.foldl Edit.apply n).Holds (edits.foldl Edit.leave h) from
    this _ _ .empty
  induction edits with
  | nil => exact fun _ _ h => h
  | cons e rest ih => exact fun n h hn => ih _ _ (hn.apply e)

section

variable {n : NumberIndex} {held : List Holding} {field : String} {lower upper : Bound} {doc : Nat}

theorem Holds.lt_size (h : n.Holds held) {key : Nat} (hm : doc ∈ n.docsAt field key) :
    key < UInt64.size := by
  obtain ⟨v, hv, rfl⟩ := h.mem_docsAt.1 hm
  exact sortKey_lt_size (h.isNumber hv)

theorem Holds.mem_range (h : n.Holds held) : doc ∈ n.range field lower upper ↔
    ∃ v, ⟨doc, field, v⟩ ∈ held ∧ lower.least ≤ sortKey v ∧ sortKey v < upper.limit := by
  rw [NumberIndex.mem_range]
  constructor
  · rintro ⟨key, hl, hu, hm⟩
    obtain ⟨v, hv, rfl⟩ := h.mem_docsAt.1 hm
    exact ⟨v, hv, hl, hu⟩
  · rintro ⟨v, hv, hl, hu⟩
    exact ⟨sortKey v, hl, hu, h.mem_docsAt.2 ⟨v, hv, rfl⟩⟩

theorem Holds.range?_eq (h : n.Holds held) (field : String) (lower upper : Bound) :
    n.range? field lower upper = some (n.range field lower upper) := by
  rw [range?]
  cases ht : n.fields.get? field with
  | none =>
    rw [range, ht]
    rfl
  | some tree =>
    have hmem (doc : Nat) : doc ∈ n.range field lower upper ↔
        ∃ key docs, tree.get? key = some docs ∧ doc ∈ docs ∧
          lower.keyEnd.startsBy key ∧ upper.keyEnd.endsBy key := by
      rw [NumberIndex.mem_range]
      refine exists_congr fun key => ?_
      have hdocs : doc ∈ n.docsAt field key ↔ ∃ docs, tree.get? key = some docs ∧ doc ∈ docs := by
        rw [NumberIndex.mem_docsAt, ht, Option.bind_some]
      constructor
      · rintro ⟨hl, hu, hm⟩
        obtain ⟨docs, hget, hd⟩ := hdocs.1 hm
        exact ⟨docs, hget, hd, by rwa [Bound.startsBy_keyEnd, decide_eq_true_eq],
          by rwa [Bound.endsBy_keyEnd _ (h.lt_size hm), decide_eq_true_eq]⟩
      · rintro ⟨docs, hget, hd, hl, hu⟩
        have hm := hdocs.2 ⟨docs, hget, hd⟩
        rw [Bound.startsBy_keyEnd, decide_eq_true_eq] at hl
        rw [Bound.endsBy_keyEnd _ (h.lt_size hm), decide_eq_true_eq] at hu
        exact ⟨hl, hu, hm⟩
    dsimp only
    cases hv : lower.keyEnd.isVoid upper.keyEnd with
    | true =>
      rw [if_pos rfl]
      refine congrArg some (DocSet.ext fun doc => ?_)
      rw [hmem]
      refine iff_of_false (DocSet.mem_empty doc) ?_
      rintro ⟨key, _, _, _, hadmits⟩
      exact KeyEnd.not_admits_of_isVoid hv key hadmits
    | false =>
      rw [if_neg Bool.false_ne_true, Dict.between?,
        if_neg (Bool.eq_false_iff.1 (KeyEnd.isRefused_of_not_isVoid hv)), Option.map_some]
      refine congrArg some (DocSet.ext fun doc => ?_)
      simp only [hmem, DocSet.mem_unions, Dict.mem_values_iff, Dict.get?_filter_eq_some,
        Bool.and_eq_true]
      constructor
      · rintro ⟨docs, ⟨key, hget, hadmits⟩, hd⟩
        exact ⟨key, docs, hget, hd, hadmits⟩
      · rintro ⟨key, docs, hget, hd, hadmits⟩
        exact ⟨docs, ⟨key, hget, hadmits⟩, hd⟩

theorem Holds.mem_range_iff (h : n.Holds held) (hl : lower.IsNumber) (hu : upper.IsNumber)
    (hlne : lower ≠ .included (.infinity false)) (hune : upper ≠ .included (.infinity true)) :
    doc ∈ n.range field lower upper ↔
      ∃ v, ⟨doc, field, v⟩ ∈ held ∧ lower.Below v ∧ upper.Above v := by
  rw [h.mem_range]
  refine exists_congr fun v => and_congr_right fun hm => ?_
  rw [Bound.least_le_iff hl hlne (h.isNumber hm), Bound.lt_limit_iff hu hune (h.isNumber hm)]

theorem Holds.range_of_infinity (h : n.Holds held) (field : String) (upper : Bound) :
    n.range field (.included (.infinity false)) upper = .empty := by
  refine DocSet.ext fun doc => iff_of_false (fun hm => ?_) (DocSet.mem_empty doc)
  obtain ⟨v, hv, hle, -⟩ := h.mem_range.1 hm
  exact Nat.not_le.2 (Bound.sortKey_lt_least_infinity (h.isNumber hv)) hle

theorem range_negInfinity (n : NumberIndex) (field : String) (lower : Bound) :
    n.range field lower (.included (.infinity true)) = n.range field lower .unbounded := rfl

theorem Holds.mem_equals (h : n.Holds held) {x : Binary64} (hx : x.isFinite) :
    doc ∈ n.equals field x ↔ ∃ v, ⟨doc, field, v⟩ ∈ held ∧ x.eq v := by
  have hnan := Binary.isNaN_of_isFinite hx
  have hne (negative : Bool) : Bound.included x ≠ .included (.infinity negative) := by
    rintro ⟨⟩
    exact absurd hx (by simp [Binary.isFinite, Binary.infinity])
  have hb : (Bound.included x).IsNumber := hnan
  rw [equals, h.mem_range_iff hb hb (hne false) (hne true)]
  exact exists_congr fun v => and_congr_right fun hm => (Binary.eq_iff_le hnan (h.isNumber hm)).symm

end

end NumberIndex

end Corpus
