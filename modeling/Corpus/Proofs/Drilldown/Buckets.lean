import Corpus.Proofs.Drilldown.Levels

/-! Buckets that were checked are apart: a number is in one of them at most.  What the buckets find of the
matches of a plan adds up to what they find together, where no document has two numbers in their field. -/

namespace Corpus

open Number

namespace Bucket

variable {a b : Bucket} {x : Binary64}

def hasKey (b : Bucket) (key : Nat) : Bool := b.bounds.1.least ≤ key && key < b.bounds.2.limit

theorem lower_lt_infinity (hb : b.lower.isNaN = false) (hx : x.isNaN = false)
    (h : b.bounds.1.least ≤ sortKey x) : b.lower.lt (.infinity false) := by
  refine Decidable.byContradiction fun hlt => ?_
  have hinf := Binary.eq_of_not_lt_infinity (by decide) hb (Bool.eq_false_iff.2 hlt)
  have hleast : b.bounds.1.least = UInt64.size - 1 := by
    rw [bounds, hinf]
    rfl
  have hkey := sortKey_eq x hx
  have hrank := Binary.rank_le_infinity hx
  have hlast : (middleKey + Format.double.infinity : Nat) < UInt64.size - 1 := by decide
  split at hkey <;> omega

theorem hasKey_sortKey (hb : b.isValid) (hx : x.isNaN = false) :
    b.hasKey (sortKey x) ↔ b.lower.lt (.infinity false) ∧ b.admits x := by
  obtain ⟨hlower, hupper, -⟩ := isValid_iff.1 hb
  rw [hasKey, admits, Bool.and_eq_true, Bool.and_eq_true, decide_eq_true_eq, decide_eq_true_eq,
    sortKey_lt_bounds hupper hx]
  constructor
  · rintro ⟨hl, hu⟩
    have hlt := lower_lt_infinity hlower hx hl
    exact ⟨hlt, (least_bounds_le hlt hx).1 hl, hu⟩
  · rintro ⟨hlt, hl, hu⟩
    exact ⟨(least_bounds_le hlt hx).2 hl, hu⟩

theorem not_admits_of_le (ha : a.isValid) (hb : b.isValid) (hab : a.upper.rank ≤ b.lower.rank)
    (hlt : b.lower.lt (.infinity false)) (hx : x.isNaN = false) (h : a.admits x) :
    b.admits x = false := by
  obtain ⟨-, hau, -⟩ := isValid_iff.1 ha
  obtain ⟨hbl, -, -⟩ := isValid_iff.1 hb
  have hinf : (Binary.infinity false : Binary64).isNaN = false := rfl
  rw [Binary.lt_iff hbl hinf] at hlt
  have hup : x.rank < b.lower.rank := by
    rw [admits, Bool.and_eq_true, Bool.or_eq_true, Binary.lt_iff hx hau] at h
    cases h.2 with
    | inl h => omega
    | inr h =>
      have he : a.upper.rank = (Binary.infinity false : Binary64).rank := by
        simp only [Binary.eq, Bool.and_eq_true, decide_eq_true_eq] at h
        exact h.2
      omega
  rw [admits, Bool.and_eq_false_iff]
  refine .inl (Bool.eq_false_iff.2 fun hle => ?_)
  rw [Binary.le_iff hbl hx] at hle
  omega

theorem pairwise_of_overlap? {buckets : List Bucket}
    (hs : buckets.Pairwise fun a b => a.lower.rank ≤ b.lower.rank)
    (hv : ∀ b ∈ buckets, b.isValid) (h : overlap? buckets = none) :
    buckets.Pairwise fun a b => a.upper.rank ≤ b.lower.rank := by
  match buckets with
  | [] => exact .nil
  | [a] => exact List.pairwise_singleton ..
  | a :: b :: rest =>
    rw [overlap?] at h
    split at h
    next => cases h
    next hc =>
      have hrest := pairwise_of_overlap? hs.of_cons (fun c hc => hv c (.tail _ hc)) h
      have hab : a.upper.rank ≤ b.lower.rank := by
        obtain ⟨hal, hau, -⟩ := isValid_iff.1 (hv a (.head _))
        obtain ⟨hbl, -, -⟩ := isValid_iff.1 (hv b (.tail _ (.head _)))
        have hle : a.lower.le b.lower :=
          (Binary.le_iff hal hbl).2 (List.rel_of_pairwise_cons hs (.head _))
        rw [contains, hle, Bool.true_and, Binary.lt_iff hbl hau] at hc
        exact Int.not_lt.1 hc
      refine .cons (fun c hc => ?_) hrest
      cases hc with
      | head => exact hab
      | tail _ hc => exact Int.le_trans hab (List.rel_of_pairwise_cons hs.of_cons hc)

theorem pairwise_mergeSort_of_check {buckets : List Bucket} (h : check buckets = .ok ()) :
    (buckets.mergeSort fun a b => a.lower.totalRank ≤ b.lower.totalRank).Pairwise
      fun a b => a.upper.rank ≤ b.lower.rank := by
  have hv := isValid_of_check h
  have hperm := List.mergeSort_perm buckets fun a b => decide (a.lower.totalRank ≤ b.lower.totalRank)
  have hsorted := (pairwise_mergeSort_rank (·.lower.totalRank) buckets).imp fun {a b} hab =>
    Binary.rank_le_of_totalRank_le hab
  refine pairwise_of_overlap? hsorted (fun b hb => hv b (hperm.mem_iff.1 hb)) ?_
  rw [check] at h
  split at h
  next => cases h
  next =>
    split at h
    next => cases h
    next hover => exact hover

theorem exists_perm_of_check {buckets : List Bucket} (h : check buckets = .ok ()) :
    ∃ sorted : List Bucket, sorted.Perm buckets ∧
      sorted.Pairwise fun a b => a.upper.rank ≤ b.lower.rank :=
  ⟨_, List.mergeSort_perm .., pairwise_mergeSort_of_check h⟩

theorem check_of_pairwise {buckets : List Bucket} (hv : ∀ b ∈ buckets, b.isValid)
    (hs : buckets.Pairwise fun a b => a.lower.totalRank ≤ b.lower.totalRank)
    (ho : overlap? buckets = none) : check buckets = .ok () := by
  have hfind : buckets.find? (! ·.isValid) = none :=
    List.find?_eq_none.2 fun b hb => by simpa using hv b hb
  rw [check, hfind, List.mergeSort_of_pairwise (hs.imp decide_eq_true)]
  dsimp only
  rw [ho]

theorem countP_hasKey_le {buckets : List Bucket} (h : check buckets = .ok ()) (hx : x.isNaN = false) :
    buckets.countP (·.hasKey (sortKey x)) ≤ 1 := by
  obtain ⟨sorted, hperm, hapart⟩ := exists_perm_of_check h
  have hv : ∀ b ∈ sorted, b.isValid := fun b hb => isValid_of_check h b (hperm.mem_iff.1 hb)
  rw [← hperm.countP_eq]
  clear hperm h
  induction sorted with
  | nil => exact Nat.zero_le _
  | cons a rest ih =>
    rw [List.forall_mem_cons] at hv
    rw [List.countP_cons]
    split
    next ha =>
      have hrest : rest.countP (·.hasKey (sortKey x)) = 0 := by
        refine List.countP_eq_zero.2 fun b hb hk => ?_
        obtain ⟨-, hax⟩ := (hasKey_sortKey hv.1 hx).1 ha
        obtain ⟨hlt, hbx⟩ := (hasKey_sortKey (hv.2 b hb) hx).1 hk
        have hnot := not_admits_of_le hv.1 (hv.2 b hb) (List.rel_of_pairwise_cons hapart hb) hlt hx hax
        exact Bool.false_ne_true (hnot.symm.trans hbx)
      omega
    next => exact ih hapart.of_cons hv.2

theorem countP_or_le {α : Type} (p q : α → Bool) (l : List α) :
    l.countP (fun a => p a || q a) ≤ l.countP p + l.countP q := by
  induction l with
  | nil => exact Nat.zero_le _
  | cons a rest ih =>
    simp only [List.countP_cons]
    cases p a <;> cases q a <;> simp <;> omega

def finds (b : Bucket) (field : String) (d : Document) : Bool :=
  (Fields.keys d.fields field).any b.hasKey

theorem countP_finds_le {buckets : List Bucket} (h : check buckets = .ok ()) (field : String)
    (d : Document) :
    buckets.countP (·.finds field d) ≤ (Fields.numbers d.fields field).length := by
  suffices hkeys : ∀ xs : List Binary64, (∀ x ∈ xs, x.isNaN = false) →
      buckets.countP (fun b => (xs.map sortKey).any b.hasKey) ≤ xs.length by
    refine (hkeys ((Fields.numbers d.fields field).filter (! ·.isNaN)) fun x hx => ?_).trans
      (List.length_filter_le ..)
    simpa using (List.mem_filter.1 hx).2
  intro xs hxs
  induction xs with
  | nil => simp
  | cons x rest ih =>
    rw [List.forall_mem_cons] at hxs
    have hx := countP_hasKey_le h hxs.1
    have hrest := ih hxs.2
    have hor : buckets.countP (fun b => ((x :: rest).map sortKey).any b.hasKey) ≤
        buckets.countP (·.hasKey (sortKey x)) +
          buckets.countP fun b => (rest.map sortKey).any b.hasKey := by
      simp only [List.map_cons, List.any_cons]
      exact countP_or_le ..
    rw [List.length_cons]
    omega

theorem countP_finds {buckets : List Bucket} (h : check buckets = .ok ()) {field : String}
    {d : Document} (hd : (Fields.numbers d.fields field).length ≤ 1) :
    buckets.countP (·.finds field d) = if buckets.any (·.finds field d) then 1 else 0 := by
  have hle := (countP_finds_le h field d).trans hd
  split
  next hany =>
    obtain ⟨b, hb, hf⟩ := List.any_eq_true.1 hany
    have hpos : 0 < buckets.countP (·.finds field d) := List.countP_pos_iff.2 ⟨b, hb, hf⟩
    omega
  next hany =>
    refine List.countP_eq_zero.2 fun b hb hf => hany (List.any_eq_true.2 ⟨b, hb, hf⟩)

theorem sum_countP_finds {buckets : List Bucket} (h : check buckets = .ok ()) {field : String}
    {docs : List Document} (hd : ∀ d ∈ docs, (Fields.numbers d.fields field).length ≤ 1)
    (keeps : Document → Bool) :
    (buckets.map fun b => docs.countP fun d => keeps d && b.finds field d).sum =
      docs.countP fun d => keeps d && buckets.any (·.finds field d) := by
  induction docs with
  | nil => simp
  | cons d rest ih =>
    rw [List.forall_mem_cons] at hd
    have hfirst : buckets.countP (fun b => keeps d && b.finds field d) =
        if keeps d && buckets.any (·.finds field d) then 1 else 0 := by
      cases keeps d with
      | true => simpa using countP_finds h hd.1
      | false => simp
    simp only [List.countP_cons, List.sum_map_add, FacetIndex.sum_map_ite, ih hd.2, hfirst]

end Bucket

namespace Plan

variable {score : Scorer} {st : Statistics} {s : Segment}

theorem isSome_score?_bucketPlan (b : Bucket) (field : String) (d : Document) :
    ((b.plan field).score? score st d.fields).isSome = b.finds field d := by
  rw [Drilldown.score?_bucketPlan, Bool.eq_iff_iff, Option.isSome_ite]
  rfl

theorem length_hitsAmong (score : Scorer) (st : Statistics) (p : Plan) (docs : List Document) :
    (p.hitsAmong score st docs).length =
      docs.countP fun d => (p.score? score st d.fields).isSome := by
  rw [hitsAmong, List.length_filterMap_eq_countP]
  simp only [Option.isSome_map]

theorem inter_docs_bucket (h : s.Faithful) (p : Plan) (field : String) (b : Bucket) :
    (s.numbers.range field b.bounds.1 b.bounds.2).inter (p.scan score st s).docs =
      ((p.filtered [b.plan field]).scan score st s).docs := by
  refine DocSet.ext fun doc => ?_
  rw [DocSet.mem_inter, Dict.mem_docs, Dict.mem_docs, get?_scan, get?_scan, h.mem_range]
  cases hd : s.docs.get? doc with
  | none => simp
  | some d =>
    rw [Option.bind_some, Option.bind_some, isSome_score?_filtered, List.all_cons, List.all_nil,
      Bool.and_true, isSome_score?_bucketPlan, Bool.and_eq_true, and_comm]
    simp [Bucket.finds, Bucket.hasKey]

theorem length_docs_bucket (h : s.Faithful) (score : Scorer) (st : Statistics) (p : Plan)
    (field : String) (b : Bucket) :
    ((s.numbers.range field b.bounds.1 b.bounds.2).inter (p.scan score st s).docs).toList.length =
      s.docs.values.countP fun d => (p.score? score st d.fields).isSome && b.finds field d := by
  have hsize : ((p.filtered [b.plan field]).scan score st s).docs.toList.length =
      ((p.filtered [b.plan field]).hitsAmong score st s.docs.values).length :=
    (Dict.length_keys _).trans (size_scan ..)
  rw [inter_docs_bucket h, hsize, length_hitsAmong]
  refine List.countP_congr fun d _ => ?_
  rw [isSome_score?_filtered, List.all_cons, List.all_nil, Bool.and_true, isSome_score?_bucketPlan]

end Plan

namespace Drilldown

variable {r : Drilldown} {score : Scorer} {st : Statistics} {field : String}

theorem bucketScore_eq (hr : r.scoreField = none) {shards : Shards} (hs : ∀ s ∈ shards, s.Faithful)
    (p : Plan) (b : Bucket) (hn : (shards.documents.countP fun d =>
      (p.score? score st d.fields).isSome && b.finds field d) < 2 ^ 53) :
    r.bucketScore field (shards.map fun s => (s, (p.scan score st s).docs)) b =
      .ofNat (shards.documents.countP fun d =>
        (p.score? score st d.fields).isSome && b.finds field d) := by
  have hcount : (shards.documents.countP fun d =>
      (p.score? score st d.fields).isSome && b.finds field d) =
        (shards.map fun s => s.docs.values.countP fun d =>
          (p.score? score st d.fields).isSome && b.finds field d).sum := by
    rw [Shards.documents, List.countP_flatMap]
    rfl
  rw [hcount] at hn ⊢
  rw [← Tally.score_sum_ones hn, bucketScore, List.map_map, List.map_map, hr]
  refine congrArg (fun ts => (Tally.sum ts).score) (List.map_congr_left fun s hm => ?_)
  have hlength := Plan.length_docs_bucket (hs s hm) score st p field b
  show Tally.sum (((s.numbers.range field b.bounds.1 b.bounds.2).inter
    (p.scan score st s).docs).toList.map fun _ => ⟨1, 1⟩) = _
  rw [List.map_const', hlength]
  rfl

variable {schema : Schema}

theorem check_of_check (hc : r.check schema = .ok ()) (hf : r.rangeField = some field) :
    Bucket.check r.buckets = .ok () := by
  obtain ⟨-, -, hc⟩ := bind_eq_ok.1 hc
  obtain ⟨-, -, hc⟩ := bind_eq_ok.1 hc
  rw [hf] at hc
  obtain ⟨-, -, hc⟩ := bind_eq_ok.1 hc
  exact hc

theorem check_of_range (hp : r.paths.keys.forM (checkFacet schema) = .ok ())
    (hs : r.scoreField = none) (hf : r.rangeField = some field)
    (hn : checkNumeric schema .range field = .ok ()) (hb : Bucket.check r.buckets = .ok ()) :
    r.check schema = .ok () := by
  rw [check, hp, hs, hf, hb]
  show checkNumeric schema .range field >>= _ = _
  rw [hn]
  rfl

theorem isSome_score?_filters (hf : r.rangeField = some field) (hne : r.buckets ≠ []) (p : Plan)
    (d : Document) :
    ((p.filtered (r.filters true)).score? score st d.fields).isSome =
      (((p.filtered (r.filters false)).score? score st d.fields).isSome &&
        r.buckets.any (·.finds field d)) := by
  have hfilter : r.filterField? true = some field := by simp [filterField?, hf, hne]
  have hfalse : r.filters false = r.paths.entries.map pathPlan := List.append_nil _
  have htrue : r.filters true =
      r.filters false ++ [.anyOf (r.buckets.map (Bucket.plan field))] := by
    rw [hfalse, filters, hfilter]
  rw [htrue, Plan.isSome_score?_filtered, Plan.isSome_score?_filtered, List.all_append, List.all_cons,
    List.all_nil, Bool.and_true, Plan.isSome_score?_anyOf, List.any_map, Bool.and_assoc]
  simp only [Function.comp_def, Plan.isSome_score?_bucketPlan]

end Drilldown

end Corpus
