import Corpus.Drilldown.Request
import Corpus.Proofs.Data.Failure
import Corpus.Proofs.Number.Key

/-! What a scope tells of a drill-down.  Its filters can be read back from it, unless the edges of a bucket
are one and the same infinity. -/

namespace Corpus

open Number

namespace Number.Binary

variable {f : Format} {x : Binary f}

theorem eq_infinity_of_isFinite (h : x.isFinite) : x.eq (.infinity false) = false := by
  have hr : x.rank < f.infinity := by
    simp only [isFinite, decide_eq_true_eq] at h
    rw [rank]
    split <;> omega
  have hi : (infinity false : Binary f).rank = f.infinity := rfl
  rw [eq, hi, decide_eq_false (by omega), Bool.and_false]

theorem eq_of_not_lt_infinity (hf : 0 < f.infinity) (hn : x.isNaN = false)
    (h : x.lt (.infinity false) = false) : x = .infinity false := by
  obtain ⟨negative, magnitude⟩ := x
  rw [lt, hn] at h
  simp only [isNaN, infinity, Nat.lt_irrefl, rank, decide_eq_false_iff_not, decide_false,
    Bool.not_false, Bool.true_and, Bool.false_eq_true, if_false] at hn h
  cases negative with
  | true => simp only [if_true] at h; omega
  | false =>
    exact congrArg (Binary.mk false) (by simp only [Bool.false_eq_true, if_false] at h; omega)

theorem eq_of_not_infinity_lt (hf : 0 < f.infinity) (hn : x.isNaN = false)
    (h : (infinity true).lt x = false) : x = .infinity true := by
  obtain ⟨negative, magnitude⟩ := x
  rw [lt, hn] at h
  simp only [isNaN, infinity, Nat.lt_irrefl, rank, decide_eq_false_iff_not, decide_false,
    Bool.not_false, Bool.true_and, if_true] at hn h
  cases negative with
  | true => exact congrArg (Binary.mk true) (by simp only [if_true] at h; omega)
  | false => simp only [Bool.false_eq_true, if_false] at h; omega

end Number.Binary

namespace Scope

/-- The plan of a bucket.  An edge that is left out is at the infinity of its side. -/
def rangePlan (field : String) (r : String × Option Binary64 × Option Binary64) : Plan :=
  .leaf (.numbers field (.included (r.2.1.getD (.infinity true))) (r.2.2.elim .unbounded .excluded)) 0

def filters (s : Scope) : List Plan :=
  s.paths.entries.map Drilldown.pathPlan ++
    match s.rangeField with
    | some field => [.anyOf (s.ranges.map (rangePlan field))]
    | none => []

end Scope

namespace Bucket

variable {b : Bucket}

def atInfinity (b : Bucket) : Bool := b.lower.isInfinite && b.lower = b.upper

theorem isValid_iff : b.isValid ↔
    b.lower.isNaN = false ∧ b.upper.isNaN = false ∧ b.upper.lt b.lower = false := by
  simp only [isValid, Bool.and_eq_true, Bool.not_eq_true', and_assoc]

theorem infinity_of_lower (hv : b.isValid) (hb : b.atInfinity = false)
    (hf : b.lower.isFinite = false) : b.lower = .infinity true := by
  obtain ⟨hl, hu, hlt⟩ := isValid_iff.1 hv
  have hlower := Binary.eq_infinity hl hf
  cases hn : b.lower.negative with
  | true => rwa [hn] at hlower
  | false =>
    rw [hn] at hlower
    rw [hlower] at hlt
    have hupper := Binary.eq_of_not_lt_infinity (by decide) hu hlt
    rw [atInfinity, hlower, hupper] at hb
    cases hb

theorem infinity_of_upper (hv : b.isValid) (hb : b.atInfinity = false)
    (hf : b.upper.isFinite = false) : b.upper = .infinity false := by
  obtain ⟨hl, hu, hlt⟩ := isValid_iff.1 hv
  have hupper := Binary.eq_infinity hu hf
  cases hn : b.upper.negative with
  | false => rwa [hn] at hupper
  | true =>
    rw [hn] at hupper
    rw [hupper] at hlt
    have hlower := Binary.eq_of_not_infinity_lt (by decide) hl hlt
    rw [atInfinity, hlower, hupper] at hb
    cases hb

theorem rangePlan_scope (hv : b.isValid) (hb : b.atInfinity = false) (field : String) :
    Scope.rangePlan field b.scope = b.plan field := by
  have hlower : (if b.lower.isFinite then some b.lower else none).getD (.infinity true) =
      b.lower := by
    cases hf : b.lower.isFinite with
    | true => rfl
    | false => exact (infinity_of_lower hv hb hf).symm
  have hupper : (if b.upper.isFinite then some b.upper else none).elim .unbounded .excluded =
      b.bounds.2 := by
    cases hf : b.upper.isFinite with
    | true => simp [bounds, Binary.eq_infinity_of_isFinite hf]
    | false =>
      rw [bounds, infinity_of_upper hv hb hf]
      rfl
  rw [Scope.rangePlan, plan, scope, hlower, hupper]
  rfl

theorem isValid_of_check {buckets : List Bucket} (h : check buckets = .ok ()) :
    ∀ b ∈ buckets, b.isValid := by
  rw [check] at h
  split at h
  next => cases h
  next hfind =>
    intro b hb
    simpa using List.find?_eq_none.1 hfind b hb

end Bucket

namespace Drilldown

variable {r : Drilldown}

def Told (r : Drilldown) : Prop := ∀ b ∈ r.buckets, b.atInfinity = false

instance (r : Drilldown) : Decidable r.Told :=
  inferInstanceAs (Decidable (∀ b ∈ r.buckets, b.atInfinity = false))

theorem isValid_of_check {s : Schema} {field : String} (hc : r.check s = .ok ())
    (hf : r.filterField? true = some field) : ∀ b ∈ r.buckets, b.isValid := by
  obtain ⟨-, -, hc⟩ := bind_eq_ok.1 hc
  obtain ⟨-, -, hc⟩ := bind_eq_ok.1 hc
  rw [filterField?] at hf
  split at hf
  next =>
    rw [hf] at hc
    obtain ⟨-, -, hc⟩ := bind_eq_ok.1 hc
    exact Bucket.isValid_of_check hc
  next => cases hf

theorem filters_scope (hr : r.Told) {s : Schema} (hc : r.check s = .ok ()) :
    (r.scope true).filters = r.filters true := by
  cases hf : r.filterField? true with
  | none => simp only [Drilldown.scope, Drilldown.filters, hf, Scope.filters]
  | some field =>
    have hvalid := isValid_of_check hc hf
    have hplans : (r.buckets.map Bucket.scope).map (Scope.rangePlan field) =
        r.buckets.map (Bucket.plan field) := by
      rw [List.map_map]
      exact List.map_congr_left fun b hb => Bucket.rangePlan_scope (hvalid b hb) (hr b hb) field
    simp only [Drilldown.scope, Drilldown.filters, hf, Scope.filters, hplans]

end Drilldown

end Corpus
