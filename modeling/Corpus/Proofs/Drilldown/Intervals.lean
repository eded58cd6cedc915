import Corpus.Proofs.Drilldown.Buckets
import Corpus.Proofs.Query.Single
import Corpus.Proofs.Search.Recovery

/-! Intervals of numbers, as a bucket and as a query writes them.  A bucket as a filter and the part of a
query that asks for its numbers keep the same matches, and come upon the same limit. -/

namespace Corpus

open Number

namespace Bucket

variable {b : Bucket} {lower : String} {upper : Option String}

def EndsAt (b : Bucket) : Option String → Prop
  | some text => Plan.number? text = some b.upper ∧ b.upper.isFinite ∧ b.lower.le b.upper
  | none => b.upper = .infinity false

structure IsWritten (b : Bucket) (lower : String) (upper : Option String) : Prop where
  lowerText : Pattern.IsBound (some lower)
  upperText : Pattern.IsBound upper
  number : Plan.number? lower = some b.lower
  finite : b.lower.isFinite
  ends : b.EndsAt upper

theorem IsWritten.isValid (h : b.IsWritten lower upper) : b.isValid := by
  have hlower := Binary.isNaN_of_isFinite h.finite
  have hends := h.ends
  cases upper with
  | none =>
    have hinf : b.upper.isNaN = false := by
      rw [hends]
      rfl
    refine isValid_iff.2 ⟨hlower, hinf, Bool.eq_false_iff.2 fun hlt => ?_⟩
    have hle := (Binary.le_iff hlower (Binary.isNaN_infinity false)).1 (Binary.le_infinity hlower)
    rw [Binary.lt_iff hinf hlower, hends] at hlt
    omega
  | some text =>
    obtain ⟨-, hfinite, hle⟩ := hends
    have hupper := Binary.isNaN_of_isFinite hfinite
    refine isValid_iff.2 ⟨hlower, hupper, Bool.eq_false_iff.2 fun hlt => ?_⟩
    rw [Binary.le_iff hlower hupper] at hle
    rw [Binary.lt_iff hupper hlower] at hlt
    omega

theorem IsWritten.check (h : b.IsWritten lower upper) : Bucket.check [b] = .ok () :=
  check_of_pairwise (fun _ hb => List.mem_singleton.1 hb ▸ h.isValid) (List.pairwise_singleton ..) rfl

theorem IsWritten.lower_lt (h : b.IsWritten lower upper) : b.lower.lt (.infinity false) := by
  refine Decidable.byContradiction fun hlt => ?_
  have hinf := Binary.eq_of_not_lt_infinity (by decide) (Binary.isNaN_of_isFinite h.finite)
    (Bool.eq_false_iff.2 hlt)
  exact absurd (hinf ▸ h.finite) (by decide)

theorem IsWritten.finds_eq (h : b.IsWritten lower upper) (field : String) (d : Document) :
    b.finds field d = (Fields.numbers d.fields field).any b.admits :=
  b.any_keys h.isValid h.lower_lt d.fields field

theorem IsWritten.bounds_eq (h : b.IsWritten lower upper) (field : String) :
    Plan.bound field true (some lower) = .ok b.bounds.1 ∧
      Plan.bound field false upper = .ok b.bounds.2 := by
  constructor
  · rw [Plan.bound, Plan.number, h.number]
    rfl
  · have hends := h.ends
    cases upper with
    | none =>
      rw [bounds, hends]
      rfl
    | some text =>
      obtain ⟨hnumber, hfinite, -⟩ := hends
      rw [Plan.bound, Plan.number, hnumber, bounds, Binary.eq_infinity_of_isFinite hfinite]
      rfl

theorem IsWritten.wellFormed (h : b.IsWritten lower upper) (field : String) :
    (Pattern.range (some lower) upper true false).WellFormed allField field :=
  ⟨h.lowerText, h.upperText⟩

theorem IsWritten.parse (h : b.IsWritten lower upper) {text field : String} {q : Query}
    (hn : Query.IsName field) (hw : Text.trim text.toList ≠ [])
    (hq : Query.parse allField text = .ok q) :
    Query.parse allField
        ("(" ++ text ++ ") AND " ++ (Pattern.range (some lower) upper true false).ask field) =
      .ok (.bool [q, .field field (.range (some lower) upper true false) none] [] [] none) :=
  Query.parse_and_ask hn (h.wellFormed field) hw hq

end Bucket

theorem Schema.indexing_of_numeric {s : Schema} {field : String} (hid : field ≠ idField)
    (hall : field ≠ allField) (h : ∀ c, s.column? field = some c → c.type.isNumeric ∧ c.indexed) :
    s.indexing field = .number ∨ s.indexing field = .anywhere := by
  rw [indexing, if_neg hid, if_neg hall]
  split
  next => exact .inl rfl
  next =>
    cases hc : s.column? field with
    | none => exact .inr rfl
    | some c =>
      obtain ⟨htype, hindexed⟩ := h c hc
      exact .inl (Plan.indexing_of_isNumeric hindexed htype)

theorem checkNumeric_of_numeric {s : Schema} {role : NumericRole} {field : String}
    (h : ∀ c, s.column? field = some c → c.type.isNumeric ∧ c.indexed) :
    checkNumeric s role field = .ok () := by
  rw [checkNumeric]
  cases hc : s.column? field with
  | none => rfl
  | some c =>
    obtain ⟨htype, hindexed⟩ := h c hc
    dsimp only
    rw [htype, hindexed]
    rfl

namespace Plan

variable {score : Scorer} {shards : Shards} {st : Statistics}

def ofBucket (field : String) (b : Bucket) (boost : Binary32) : Plan :=
  .leaf (.numbers field b.bounds.1 b.bounds.2) boost

theorem isSome_score?_ofBucket (field : String) (b : Bucket) (boost : Binary32) (d : Document) :
    ((ofBucket field b boost).score? score st d.fields).isSome = b.finds field d := by
  change Option.isSome (ite _ _ _) = _
  rw [Bool.eq_iff_iff, Option.isSome_ite]
  rfl

theorem count_filtered_ofBucket (hf : ∀ s ∈ shards, s.Faithful) (p : Plan) (field : String) (b : Bucket)
    (boost : Binary32) :
    (p.filtered [ofBucket field b boost]).count score shards =
      if shards.any (p.fails score shards) then .error .oversizedGlob
      else .ok (shards.documents.countP fun d =>
        (p.score? score shards.statistics d.fields).isSome && b.finds field d) := by
  have hfails : (p.filtered [ofBucket field b boost]).fails score shards = p.fails score shards :=
    funext (fails_filtered rfl shards p)
  rw [count_eq hf, hfails, length_hitsAmong]
  simp only [isSome_score?_filtered, List.all_cons, List.all_nil, Bool.and_true, isSome_score?_ofBucket]

theorem count_runAll_ofBucket (hf : ∀ s ∈ shards, s.Faithful) (p : Plan) (field : String) (b : Bucket)
    (boost : Binary32) :
    (runAll [.prune, .unwrap] (.bool [p, ofBucket field b boost] [] [] 1)).count score shards =
      (p.filtered [ofBucket field b boost]).count score shards := by
  cases p with
  | leaf | bool => rfl
  | nothing =>
    have hnothing : runAll [.prune, .unwrap] (.bool [.nothing, ofBucket field b boost] [] [] 1) =
        .nothing := rfl
    rw [count_filtered_ofBucket hf, hnothing, count_eq hf, length_hitsAmong]
    refine congrArg (ite _ _) (congrArg Except.ok ?_)
    exact List.countP_congr fun d _ => Iff.rfl

variable {schema : Schema} {text field lower : String} {upper : Option String} {b : Bucket}

theorem ofSearch_and_ask (analyzers : Analyzers) (hw : Text.trim text.toList ≠ []) {q : Query}
    (hq : Query.parse allField text = .ok q) (hn : Query.IsName field)
    (hi : schema.indexing field = .number ∨ schema.indexing field = .anywhere)
    (hb : b.IsWritten lower upper) :
    ofSearch schema analyzers
        ("(" ++ text ++ ") AND " ++ (Pattern.range (some lower) upper true false).ask field) =
      (ofSearch schema analyzers text).map fun p =>
        runAll [.prune, .unwrap] (.bool [p, ofBucket field b 1] [] [] 1) := by
  obtain ⟨hl, hu⟩ := hb.bounds_eq field
  have hrange : ofRange schema field (some lower) upper true false 1 = .ok (ofBucket field b 1) := by
    rw [ofRange]
    cases hi with
    | inl hi => rw [hi, hl, hu]; rfl
    | inr hi => rw [hi, hl, hu]; rfl
  have hmust : ofQueries schema analyzers
        [q, .field field (.range (some lower) upper true false) none] =
      (ofQuery schema analyzers q).map fun r => [r, ofBucket field b 1] := by
    have hfield : ofQuery schema analyzers (.field field (.range (some lower) upper true false) none) =
        .ok (ofBucket field b 1) := hrange
    rw [ofQueries, ofQueries, hfield]
    cases ofQuery schema analyzers q <;> rfl
  rw [ofSearch, ofSearch, hb.parse hn hw hq, hq]
  change ofQuery schema analyzers (.bool [q, .field field _ none] [] [] none) >>= _ =
    (ofQuery schema analyzers q >>= _).map _
  rw [ofQuery, hmust]
  cases ofQuery schema analyzers q <;> rfl

end Plan

end Corpus
