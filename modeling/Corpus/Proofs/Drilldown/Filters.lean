import Corpus.Proofs.Drilldown.Scope
import Corpus.Proofs.Number.Key
import Corpus.Proofs.Search.Algebra

/-! The filters of a drill-down keep the hits of the documents that it accepts, and change no score. -/

namespace Corpus

open Number

namespace Bucket

variable {b : Bucket} {x : Binary64}

def admits (b : Bucket) (x : Binary64) : Bool :=
  b.lower.le x && (x.lt b.upper || b.upper.eq (.infinity false))

theorem least_bounds_le (hb : b.lower.lt (.infinity false)) (hx : x.isNaN = false) :
    b.bounds.1.least ≤ sortKey x ↔ b.lower.le x := by
  cases hf : b.lower.isFinite with
  | true => exact Bound.least_le_sortKey (b := .included b.lower) hf hx
  | false =>
    have hn : b.lower.isNaN = false := by
      simp only [Binary.lt, Bool.and_eq_true, Bool.not_eq_true'] at hb
      exact hb.1.1
    have hi : b.lower = .infinity true := by
      have h := Binary.eq_infinity hn hf
      cases hs : b.lower.negative with
      | true => rwa [hs] at h
      | false =>
        rw [h, hs] at hb
        simp [Binary.lt] at hb
    have hleast : b.bounds.1.least = 0 := by
      rw [bounds, hi]
      rfl
    exact iff_of_true (hleast ▸ Nat.zero_le _) (hi ▸ Binary.neg_infinity_le hx)

theorem sortKey_lt_bounds (hb : b.upper.isNaN = false) (hx : x.isNaN = false) :
    sortKey x < b.bounds.2.limit ↔ x.lt b.upper || b.upper.eq (.infinity false) := by
  rw [bounds]
  cases hu : b.upper.eq (.infinity false) with
  | true => simpa [Bound.limit] using sortKey_lt_size hx
  | false =>
    rw [Bool.or_false]
    exact Bound.sortKey_lt_limit (b := .excluded b.upper) hb hx

theorem any_keys (hv : b.isValid) (hb : b.lower.lt (.infinity false)) (fields : Fields)
    (field : String) :
    ((fields.keys field).any fun key => b.bounds.1.least ≤ key && key < b.bounds.2.limit) =
      (fields.numbers field).any b.admits := by
  rw [Fields.keys, List.any_map, List.any_filter]
  refine congrArg (List.any _) (funext fun x => ?_)
  cases hx : x.isNaN with
  | true => simp [admits, Binary.le, hx]
  | false =>
    have hupper := (isValid_iff.1 hv).2.1
    rw [Bool.eq_iff_iff]
    simp [admits, least_bounds_le hb hx, sortKey_lt_bounds hupper hx]

end Bucket

namespace Plan

variable {score : Scorer} {st : Statistics} {fields : Fields}

/-- Plans that add nothing to the score of a match. -/
def Weightless (score : Scorer) (st : Statistics) (fields : Fields) (p : Plan) : Prop :=
  ∀ x, p.score? score st fields = some x → x = 0

def filtered (p : Plan) (filters : List Plan) : Plan :=
  if filters = [] then p else .allOf (p :: filters)

theorem mem_filterMap_scores {ps : List Plan} {x : Binary32} :
    x ∈ (scoreEach? score st fields ps).filterMap id ↔
      ∃ p ∈ ps, p.score? score st fields = some x := by
  simp [scoreEach?_eq_map]

theorem isSome_score?_anyOf (ps : List Plan) :
    ((anyOf ps).score? score st fields).isSome = ps.any fun p => (p.score? score st fields).isSome := by
  match ps with
  | [] => rfl
  | [p] => simp [anyOf]
  | p :: q :: rest =>
    rw [Bool.eq_iff_iff, List.any_eq_true]
    refine (isSome_score?_bool [] (p :: q :: rest) [] 1).trans ?_
    simp

theorem eq_zero_of_weightless {ps : List Plan} (h : ∀ p ∈ ps, Weightless score st fields p) :
    ∀ x ∈ (scoreEach? score st fields ps).filterMap id, x = 0 := by
  intro x hx
  obtain ⟨p, hp, hx⟩ := mem_filterMap_scores.1 hx
  exact h p hp x hx

theorem Weightless.anyOf {ps : List Plan} (h : ∀ p ∈ ps, Weightless score st fields p) :
    Weightless score st fields (anyOf ps) := by
  match ps with
  | [] => exact nofun
  | [p] => exact h p (.head _)
  | p :: q :: rest =>
    intro x hx
    obtain ⟨-, hany, -⟩ := (isSome_score?_bool [] (p :: q :: rest) [] 1).1 (Option.isSome_of_eq_some hx)
    obtain ⟨r, hr, hsome⟩ := hany rfl (List.cons_ne_nil _ _)
    obtain ⟨y, hy⟩ := Option.isSome_iff_exists.1 hsome
    have hsum := Binary.sum_zeros (List.ne_nil_of_mem (mem_filterMap_scores.2 ⟨r, hr, hy⟩))
      (eq_zero_of_weightless h)
    change blend [] (scoreEach? score st fields (p :: q :: rest)) [] 1 = some x at hx
    rw [blend, List.nil_append] at hx
    split at hx
    next =>
      rw [scoreEach?_isEmpty, List.isEmpty_cons, if_neg Bool.false_ne_true, hsum,
        Binary.mul_one] at hx
      exact (Option.some.inj hx).symm
    next => cases hx

theorem isSome_score?_filtered (p : Plan) (filters : List Plan) :
    ((p.filtered filters).score? score st fields).isSome =
      ((p.score? score st fields).isSome &&
        filters.all fun f => (f.score? score st fields).isSome) := by
  rw [filtered]
  split
  next h => rw [h, List.all_nil, Bool.and_true]
  next =>
    rw [Bool.eq_iff_iff]
    refine (isSome_score?_bool (p :: filters) [] [] 1).trans ?_
    simp

theorem score?_filtered {p : Plan} {filters : List Plan}
    (hf : ∀ f ∈ filters, Weightless score st fields f)
    (hp : ∀ x, p.score? score st fields = some x → x + 0 = x) :
    (p.filtered filters).score? score st fields =
      if filters.all fun f => (f.score? score st fields).isSome then p.score? score st fields
      else none := by
  rw [filtered]
  split
  next h => rw [h]; rfl
  next =>
    have hadmits : admits (scoreEach? score st fields (p :: filters)) [] [] =
        ((p.score? score st fields).isSome &&
          filters.all fun f => (f.score? score st fields).isSome) := by
      simp [admits, scoreEach?_eq_map, Function.comp_def]
    change blend (scoreEach? score st fields (p :: filters)) [] [] 1 = _
    rw [blend, hadmits, List.append_nil, scoreEach?]
    cases hs : p.score? score st fields with
    | none => simp
    | some x =>
      have hsum : Binary.sum ((some x :: scoreEach? score st fields filters).filterMap id) = x :=
        Binary.sum_cons_zeros (hp x hs) (eq_zero_of_weightless hf)
      rw [Option.isSome_some, Bool.true_and, List.isEmpty_cons, if_neg Bool.false_ne_true, hsum,
        Binary.mul_one]

theorem anyOversized_eq_any (ps : List Plan) : anyOversized ps = ps.any hasOversized := by
  induction ps with
  | nil => rfl
  | cons p rest ih => rw [anyOversized, ih, List.any_cons]

theorem hasOversized_anyOf (ps : List Plan) : (anyOf ps).hasOversized = anyOversized ps := by
  match ps with
  | [] => rfl
  | [p] => exact (Bool.or_false _).symm
  | p :: q :: rest => simp [anyOf, hasOversized, anyOversized]

theorem fails_filtered {filters : List Plan} (hf : anyOversized filters = false) (shards : Shards)
    (p : Plan) (s : Segment) :
    (p.filtered filters).fails score shards s = p.fails score shards s := by
  rw [filtered]
  split
  next => rfl
  next =>
    have hmeets : meetsInAny score shards s filters = false :=
      Bool.eq_false_iff.2 fun h => Bool.eq_false_iff.1 hf (anyOversized_of_meetsInAny filters h)
    simp [fails, allOf, hasOversized, anyOversized, meetsOversized, meetsInAny, meetsWhileLeft, hf,
      hmeets]

theorem hitsAmong_filtered {p : Plan} {filters : List Plan} {keeps : Document → Bool}
    {docs : List Document} (hf : ∀ f ∈ filters, ∀ fields, Weightless score st fields f)
    (hk : ∀ d, (filters.all fun f => (f.score? score st d.fields).isSome) = keeps d)
    (hp : ∀ h ∈ p.hitsAmong score st docs, h.score + 0 = h.score) :
    (p.filtered filters).hitsAmong score st docs = p.hitsAmong score st (docs.filter keeps) := by
  rw [hitsAmong, hitsAmong, List.filterMap_filter]
  refine List.filterMap_congr fun d hd => ?_
  rw [score?_filtered (fun f h => hf f h d.fields), hk]
  · split <;> rfl
  · intro x hx
    exact hp ⟨d.id, x⟩ (List.mem_filterMap.2 ⟨d, hd, by rw [hx]; rfl⟩)

end Plan

namespace Drilldown

variable {r : Drilldown} {score : Scorer} {st : Statistics} {fields : Fields}

def accepts (r : Drilldown) (d : Document) : Bool :=
  (r.paths.entries.all fun (field, path) => (Fields.path? d.fields field).any path.isPrefixOf) &&
    match r.rangeField with
    | some field =>
      r.buckets.isEmpty || r.buckets.any fun b => (Fields.numbers d.fields field).any b.admits
    | none => true

theorem score?_pathPlan (entry : String × Path) :
    (pathPlan entry).score? score st fields =
      if (fields.path? entry.1).any entry.2.isPrefixOf then some 0 else none := rfl

theorem score?_bucketPlan (field : String) (b : Bucket) :
    (b.plan field).score? score st fields =
      if (fields.keys field).any fun key => b.bounds.1.least ≤ key && key < b.bounds.2.limit
      then some 0 else none := rfl

theorem weightless_filters (byRange : Bool) :
    ∀ f ∈ r.filters byRange, ∀ fields, f.Weightless score st fields := by
  have hzero {b : Bool} {x : Binary32} (h : (if b then some 0 else none) = some x) : x = 0 := by
    cases b <;> cases h
    rfl
  intro f hf fields
  rcases List.mem_append.1 hf with hf | hf
  · obtain ⟨entry, -, rfl⟩ := List.mem_map.1 hf
    exact fun x hx => hzero hx
  · split at hf
    next field _ =>
      rw [List.mem_singleton.1 hf]
      refine .anyOf fun p hp => ?_
      obtain ⟨b, -, rfl⟩ := List.mem_map.1 hp
      exact fun x hx => hzero hx
    next => cases hf

theorem anyOversized_filters (byRange : Bool) : Plan.anyOversized (r.filters byRange) = false := by
  rw [Plan.anyOversized_eq_any, filters, List.any_append, List.any_map, Bool.or_eq_false_iff]
  refine ⟨List.any_eq_false.2 fun _ _ => Bool.false_ne_true, ?_⟩
  split
  next field _ =>
    rw [List.any_cons, List.any_nil, Bool.or_false, Plan.hasOversized_anyOf,
      Plan.anyOversized_eq_any, List.any_map]
    exact List.any_eq_false.2 fun _ _ => Bool.false_ne_true
  next => rfl

theorem all_filters {s : Schema} (hc : r.check s = .ok ())
    (hb : ∀ b ∈ r.buckets, b.lower.lt (.infinity false)) (d : Document) :
    ((r.filters true).all fun f => (f.score? score st d.fields).isSome) = r.accepts d := by
  have hsome {b : Bool} : (if b then some (0 : Binary32) else none).isSome = b := by cases b <;> rfl
  rw [filters, accepts, List.all_append, List.all_map]
  congr 1
  · exact congrArg (List.all _) (funext fun entry => hsome)
  · cases hf : r.rangeField with
    | none => simp [filterField?, hf]
    | some field =>
      cases hempty : r.buckets.isEmpty with
      | true => simp [filterField?, hempty]
      | false =>
        have hfield : r.filterField? true = some field := by simp [filterField?, hempty, hf]
        rw [hfield]
        dsimp only
        rw [Bool.false_or, List.all_cons, List.all_nil, Bool.and_true, Plan.isSome_score?_anyOf,
          List.any_map, Bool.eq_iff_iff, List.any_eq_true, List.any_eq_true]
        refine exists_congr fun b => and_congr_right fun hm => ?_
        have hkeys := b.any_keys (isValid_of_check hc hfield b hm) (hb b hm) d.fields field
        exact (hsome.trans hkeys) ▸ Iff.rfl

end Drilldown

namespace Shards

variable {score : Scorer} {table : String} {s : Shards}

def accepted (table : String) (s : Shards) (r : Drilldown) (h : Hit) : Bool :=
  (s.document? table h.id).any r.accepts

theorem Sound.hitsAmong_filter (h : s.Sound table) (st : Statistics) (p : Plan)
    (keeps : Document → Bool) :
    p.hitsAmong score st (s.documents.filter keeps) =
      (p.hitsAmong score st s.documents).filter fun hit =>
        (s.document? table hit.id).any keeps := by
  rw [Plan.hitsAmong, Plan.hitsAmong, List.filterMap_filter, List.filter_filterMap]
  refine List.filterMap_congr fun d hd => ?_
  cases p.score? score st d.fields with
  | none => simp
  | some x => simp [h.mem_documents.1 hd, Option.filter]

theorem Sound.sort_filtered (h : s.Sound table) {r : Drilldown} {schema : Schema}
    (hc : r.check schema = .ok ()) (hb : ∀ b ∈ r.buckets, b.lower.lt (.infinity false)) {p : Plan}
    (hp : ∀ hit ∈ p.hitsAmong score s.statistics s.documents, hit.score + 0 = hit.score) :
    Ranking.sort ((p.filtered (r.filters true)).hitsAmong score s.statistics s.documents) =
      (Ranking.sort (p.hitsAmong score s.statistics s.documents)).filter (s.accepted table r) := by
  rw [Plan.hitsAmong_filtered (Drilldown.weightless_filters true) (Drilldown.all_filters hc hb) hp,
    h.hitsAmong_filter, Ranking.sort_filter]
  rfl

end Shards

end Corpus
