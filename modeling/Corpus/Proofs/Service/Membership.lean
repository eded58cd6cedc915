import Corpus.Proofs.Service.Buckets

/-! What a bucket counts against what it contains.  The index of numbers leaves a bucket that ends at infinity
open, so that infinity itself is counted in it, while no bucket contains infinity. -/

namespace Corpus

open Corpus.Action Number

namespace Bucket

variable {b : Bucket} {x : Binary64}

def isOpen (b : Bucket) : Bool := b.lower.lt (.infinity false) && b.upper.eq (.infinity false)

def counts (b : Bucket) (x : Binary64) : Bool := b.contains x || b.isOpen && x.eq (.infinity false)

theorem hasKey_sortKey_iff_counts (hb : b.isValid) (hx : x.isNaN = false) :
    b.hasKey (sortKey x) ↔ b.counts x := by
  obtain ⟨hlower, hupper, -⟩ := isValid_iff.1 hb
  have hinf : (Binary.infinity false : Binary64).isNaN = false := rfl
  have hx' := Binary.rank_le_infinity hx
  have hupper' := Binary.rank_le_infinity hupper
  have hrank : (Binary.infinity false : Binary64).rank = Format.double.infinity := rfl
  rw [hasKey_sortKey hb hx]
  simp only [admits, counts, contains, isOpen, Bool.or_eq_true, Bool.and_eq_true,
    Binary.lt_iff hlower hinf, Binary.lt_iff hx hupper, Binary.le_iff hlower hx,
    Binary.eq_iff hupper hinf, Binary.eq_iff hx hinf]
  omega

theorem counts_of_isNaN (hx : x.isNaN) : b.counts x = false := by
  simp [counts, contains, Binary.le, Binary.eq, hx]

theorem finds_eq_any_counts (hb : b.isValid) (field : String) (d : Document) :
    b.finds field d = (Fields.numbers d.fields field).any b.counts := by
  rw [finds, Fields.keys, List.any_map, List.any_filter]
  refine congrArg (List.any _) (funext fun x => ?_)
  cases hx : x.isNaN with
  | true => exact (counts_of_isNaN hx).symm
  | false => exact Bool.eq_iff_iff.2 (hasKey_sortKey_iff_counts hb hx)

end Bucket

namespace Service

variable {s : Service} {r : Drilldown} {field : String}

theorem withNumber_iff {kind : Binary64 → Bool} {hit : Hit} :
    (s.accepted { r with buckets := [] } hit && (s.catalog.get? r.table).any fun t =>
      (t.shards.document? t.name hit.id).any fun d => (Fields.numbers d.fields field).any kind) ↔
    s.accepted { r with buckets := [] } hit ∧ ∃ t, s.catalog.get? r.table = some t ∧
      ∃ d, t.shards.document? t.name hit.id = some d ∧
        ∃ x ∈ Fields.numbers d.fields field, kind x := by
  simp only [Bool.and_eq_true, Option.any_eq_true, List.any_eq_true]

theorem withNumber_counts {hits : List Hit} {b : Bucket}
    (h : b.isOpen → s.withNumber r field (·.eq (.infinity false)) hits = []) :
    s.withNumber r field b.counts hits = s.withNumber r field b.contains hits := by
  refine List.filter_congr fun hit hhit => Bool.eq_iff_iff.2 ?_
  rw [withNumber_iff, withNumber_iff]
  refine and_congr_right fun haccepted => exists_congr fun t => and_congr_right fun ht =>
    exists_congr fun d => and_congr_right fun hd => exists_congr fun x => and_congr_right fun hx => ?_
  rw [Bucket.counts, Bool.or_eq_true, Bool.and_eq_true, or_iff_left]
  rintro ⟨hopen, heq⟩
  exact List.filter_eq_nil_iff.1 (h hopen) hit hhit
    (withNumber_iff.2 ⟨haccepted, t, ht, d, hd, x, hx, heq⟩)

section

variable (hs : s.Sound) (hc : s.Coherent)
  (hr : r.check (s.catalog.schemaOrEmpty r.table) = .ok ()) (hf : r.rangeField = some field)

include hs hc hr hf

theorem drillRanges_of_search (hw : r.scoreField = none) {hits : List Hit}
    (h : ((search r.table (r.query.getD "") 0 (UInt64.size - 1)).perform s).1 = .ok hits)
    (hlen : hits.length < 2 ^ 53) :
    ((drillRanges r).perform s).1 = .ok (r.buckets.map fun b =>
      (b, .ofNat (s.withNumber r field b.counts hits).length)) := by
  rw [fst_search hs hc] at h
  rw [fst_drillRanges hs hr hf]
  cases ht : s.catalog.get? r.table with
  | none =>
    rw [ht] at h
    obtain ⟨q, hq, rfl⟩ := map_eq_ok.1 h
    dsimp only
    rw [hq]
    rfl
  | some t =>
    rw [ht] at h
    dsimp only at h ⊢
    cases hp : Plan.ofSearch t.schema s.analyzers (r.query.getD "") with
    | error e =>
      rw [Shards.search_of_error hp] at h
      cases h
    | ok p =>
      have hshards := hs.shards ht
      rw [Shards.search_of_ok hp, if_neg (by decide)] at h
      have hfails := Plan.any_fails_of_window hshards.faithful h
      obtain ⟨-, rfl⟩ := hshards.eq_sort_of_window h (Nat.lt_trans hlen (by decide))
      refine (if_neg (Bool.eq_false_iff.1 hfails)).trans (congrArg Except.ok ?_)
      refine List.map_congr_left fun b hb => congrArg (Prod.mk b) ?_
      have hvalid := Bucket.isValid_of_check (Drilldown.check_of_check hr hf) b hb
      have hcount := length_withNumber hs ht field b.counts
        (Ranking.sort_perm (p.hitsAmong scorer t.shards.statistics t.shards.documents))
      simp only [← Bucket.finds_eq_any_counts hvalid] at hcount
      rw [hcount]
      refine Drilldown.bucketScore_eq hw hshards.faithful _ b ?_
      exact hcount ▸ Nat.lt_of_le_of_lt (List.length_filter_le ..) hlen

theorem drillRanges_of_search_error {e : Error}
    (h : ((search r.table (r.query.getD "") 0 (UInt64.size - 1)).perform s).1 = .error e) :
    ((drillRanges r).perform s).1 = .error e := by
  rw [fst_search hs hc] at h
  rw [fst_drillRanges hs hr hf]
  cases ht : s.catalog.get? r.table with
  | none =>
    rw [ht] at h
    dsimp only at h ⊢
    cases hq : Query.parse allField (r.query.getD "") with
    | error e' =>
      rw [hq] at h
      cases h
      rfl
    | ok q =>
      rw [hq] at h
      cases h
  | some t =>
    rw [ht] at h
    dsimp only at h ⊢
    cases hp : Plan.ofSearch t.schema s.analyzers (r.query.getD "") with
    | error e' =>
      rw [Shards.search_of_error hp] at h
      cases h
      rfl
    | ok p =>
      rw [Shards.search_of_ok hp, if_neg (by decide), Plan.window_eq (hs.shards ht).faithful] at h
      split at h
      next hfails =>
        cases h
        exact if_pos hfails
      next => cases h

end

/-- A bucket counts the numbers that it contains, and infinity if it is open. -/
theorem drillRanges_contained {config : Config} {windows : Bool}
    (h : Service.start config windows = .ok s) (moves : List Move)
    (hr : r.check ((s.after moves).catalog.schemaOrEmpty r.table) = .ok ())
    (hf : r.rangeField = some field) (hw : r.scoreField = none) :
    (∀ hits, ((search r.table (r.query.getD "") 0 (UInt64.size - 1)).perform (s.after moves)).1 =
        .ok hits → hits.length < 2 ^ 53 →
      ((drillRanges r).perform (s.after moves)).1 = .ok (r.buckets.map fun b =>
        (b, .ofNat ((s.after moves).withNumber r field b.counts hits).length)) ∧
      ((∀ b ∈ r.buckets, b.isOpen →
          (s.after moves).withNumber r field (·.eq (.infinity false)) hits = []) →
        ((drillRanges r).perform (s.after moves)).1 = .ok (r.buckets.map fun b =>
          (b, .ofNat ((s.after moves).withNumber r field b.contains hits).length)))) ∧
    ∀ e, ((search r.table (r.query.getD "") 0 (UInt64.size - 1)).perform (s.after moves)).1 =
        .error e → ((drillRanges r).perform (s.after moves)).1 = .error e := by
  obtain ⟨hs, hc⟩ := sound_after h moves
  generalize s.after moves = s at hs hc hr
  refine ⟨fun hits hhits hlen => ?_, fun e he => drillRanges_of_search_error hs hc hr hf he⟩
  have hranges := drillRanges_of_search hs hc hr hf hw hhits hlen
  refine ⟨hranges, fun hinf => hranges.trans (congrArg Except.ok ?_)⟩
  exact List.map_congr_left fun b hb => by rw [withNumber_counts (hinf b hb)]

def halves : Drilldown :=
  ⟨"t", none, .ofList [("x", ["a"])], some "y", [⟨"low", .infinity true, 5⟩, ⟨"high", 5, .infinity false⟩],
    none, 0, 10⟩

theorem drillRanges_contained_halves : ∃ s : Service, Service.start twoShards true = .ok s ∧
    ((search "t" "" 0 (UInt64.size - 1)).perform (s.after twoPaths)).1 =
      .ok [⟨"1", 1⟩, ⟨"2", 1⟩, ⟨"3", 1⟩] ∧
    ((drillRanges halves).perform (s.after twoPaths)).1 =
      .ok [(⟨"low", .infinity true, 5⟩, .ofNat 1), (⟨"high", 5, .infinity false⟩, .ofNat 1)] := by
  have hrun : (Service.start twoShards true).toOption.any fun s =>
      ((search "t" "" 0 (UInt64.size - 1)).perform (s.after twoPaths)).1.toOption =
        some [⟨"1", 1⟩, ⟨"2", 1⟩, ⟨"3", 1⟩] &&
      (halves.paths.keys.forM
        (checkFacet ((s.after twoPaths).catalog.schemaOrEmpty "t"))).toOption = some () &&
      (checkNumeric ((s.after twoPaths).catalog.schemaOrEmpty "t") .range "y").toOption = some () &&
      (s.after twoPaths).withNumber halves "y" (·.eq (.infinity false))
        [⟨"1", 1⟩, ⟨"2", 1⟩, ⟨"3", 1⟩] = [] &&
      (halves.buckets.map fun b => ((s.after twoPaths).withNumber halves "y" b.contains
        [⟨"1", 1⟩, ⟨"2", 1⟩, ⟨"3", 1⟩]).length) = [1, 1] := by
    decide +kernel
  have hbuckets : Bucket.check halves.buckets = .ok () :=
    Bucket.check_of_pairwise (by decide +kernel) (by decide +kernel) (by decide +kernel)
  simp only [Option.any_eq_true, Bool.and_eq_true, decide_eq_true_eq] at hrun
  obtain ⟨s, hs, ⟨⟨⟨hsearch, hpaths⟩, hnumeric⟩, hnone⟩, hcounts⟩ := hrun
  have h := eq_ok_of_toOption hs
  have hhits := eq_ok_of_toOption hsearch
  have hcheck : halves.check ((s.after twoPaths).catalog.schemaOrEmpty "t") = .ok () :=
    Drilldown.check_of_range (eq_ok_of_toOption hpaths) rfl rfl (eq_ok_of_toOption hnumeric) hbuckets
  obtain ⟨-, hcontained⟩ :=
    (drillRanges_contained h twoPaths (r := halves) hcheck rfl rfl).1 _ hhits (by decide)
  have hranges := hcontained fun _ _ _ => hnone
  simp only [halves, List.map_cons, List.map_nil, List.cons.injEq, and_true] at hcounts hranges
  rw [hcounts.1, hcounts.2] at hranges
  exact ⟨s, h, hhits, hranges⟩

def endless : List Move :=
  [.ask (.createTable "t"), .ask (.put [⟨"1", "t", 0, .ofList [("y", .double (.infinity false))]⟩]),
    .work 1 0, .work 1 1]

def fromZero : Drilldown :=
  ⟨"t", none, .empty, some "y", [⟨"all", 0, .infinity false⟩], none, 0, 10⟩

/-- The bucket counts infinity, which it does not contain. -/
theorem drillRanges_fromZero : ∃ s : Service, Service.start twoShards true = .ok s ∧
    ((search "t" "" 0 (UInt64.size - 1)).perform (s.after endless)).1 = .ok [⟨"1", 1⟩] ∧
    ((drillRanges fromZero).perform (s.after endless)).1 = .ok [(⟨"all", 0, .infinity false⟩, 1)] ∧
    ∀ b ∈ fromZero.buckets,
      ((s.after endless).withNumber fromZero "y" b.contains [⟨"1", 1⟩]).length = 0 := by
  have hrun : (Service.start twoShards true).toOption.any fun s =>
      ((search "t" "" 0 (UInt64.size - 1)).perform (s.after endless)).1.toOption =
        some [⟨"1", 1⟩] &&
      (checkNumeric ((s.after endless).catalog.schemaOrEmpty "t") .range "y").toOption = some () &&
      (fromZero.buckets.map fun b =>
        (b, Binary.ofNat ((s.after endless).withNumber fromZero "y" b.counts [⟨"1", 1⟩]).length)) =
        [(⟨"all", 0, .infinity false⟩, (1 : Binary64))] &&
      decide (∀ b ∈ fromZero.buckets,
        ((s.after endless).withNumber fromZero "y" b.contains [⟨"1", 1⟩]).length = 0) := by
    decide +kernel
  have hbuckets : Bucket.check fromZero.buckets = .ok () :=
    Bucket.check_of_pairwise (by decide +kernel) (by decide +kernel) (by decide +kernel)
  simp only [Option.any_eq_true, Bool.and_eq_true, decide_eq_true_eq] at hrun
  obtain ⟨s, hs, ⟨⟨hsearch, hnumeric⟩, hcounts⟩, hcontains⟩ := hrun
  have h := eq_ok_of_toOption hs
  have hhits := eq_ok_of_toOption hsearch
  have hcheck : fromZero.check ((s.after endless).catalog.schemaOrEmpty "t") = .ok () :=
    Drilldown.check_of_range rfl rfl rfl (eq_ok_of_toOption hnumeric) hbuckets
  obtain ⟨hsound, hcoherent⟩ := sound_after h endless
  have hranges := drillRanges_of_search hsound hcoherent (r := fromZero) hcheck rfl rfl hhits (by decide)
  exact ⟨s, h, hhits, hranges.trans (congrArg Except.ok hcounts), hcontains⟩

end Service

end Corpus
