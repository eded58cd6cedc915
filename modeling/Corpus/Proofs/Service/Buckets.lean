import Corpus.Proofs.Drilldown.Buckets
import Corpus.Proofs.Service.Navigation
import Corpus.Proofs.Service.Reachable

/-! The buckets of a drill-down share out the hits of its query, unless a column has the name of the
timestamp's field. -/

namespace Corpus

open Corpus.Action Number

namespace Number.Binary

theorem foldl_add_ofNat {ns : List Nat} (h : ns.sum < 2 ^ 53) :
    ((ns.map ofNat).foldl (· + ·) 0 : Binary64) = ofNat ns.sum := by
  induction ns using List.reverseRecOn with
  | nil =>
    rw [List.sum_nil]
    rfl
  | append_singleton ns n ih =>
    rw [List.sum_append, List.sum_singleton] at h ⊢
    have hns : ns.sum < 2 ^ 53 := by omega
    have hn : n < 2 ^ 53 := by omega
    rw [List.map_append, List.foldl_append, ih hns, List.map_singleton, List.foldl_cons, List.foldl_nil,
      ofNat_add_ofNat hns hn]

end Number.Binary

namespace Bucket

def Covers (buckets : List Bucket) : Prop :=
  ∀ x : Binary64, x.isNaN = false → ∃ b ∈ buckets, b.admits x

theorem Covers.any_hasKey {buckets : List Bucket} (hc : Covers buckets)
    (hv : ∀ b ∈ buckets, b.isValid) {x : Binary64} (hx : x.isNaN = false) :
    buckets.any (·.hasKey (sortKey x)) := by
  have hinf : (Binary.infinity false : Binary64).isNaN = false := rfl
  rw [List.any_eq_true]
  by_cases hlt : x.rank < (Binary.infinity false : Binary64).rank
  · obtain ⟨b, hb, hadmits⟩ := hc x hx
    obtain ⟨hbl, -, -⟩ := isValid_iff.1 (hv b hb)
    have hle := (Bool.and_eq_true_iff.1 hadmits).1
    rw [Binary.le_iff hbl hx] at hle
    refine ⟨b, hb, (hasKey_sortKey (hv b hb) hx).2 ⟨?_, hadmits⟩⟩
    rw [Binary.lt_iff hbl hinf]
    omega
  · -- the bucket of the greatest finite number has no upper bound
    let top : Binary64 := ⟨false, Format.double.infinity - 1⟩
    have htop : top.isNaN = false := by decide
    obtain ⟨b, hb, hadmits⟩ := hc top htop
    obtain ⟨hbl, hbu, -⟩ := isValid_iff.1 (hv b hb)
    obtain ⟨hle, hup⟩ := Bool.and_eq_true_iff.1 hadmits
    rw [Binary.le_iff hbl htop] at hle
    have hlower : b.lower.rank < (Binary.infinity false : Binary64).rank := by
      have hr : top.rank < (Binary.infinity false : Binary64).rank := by decide
      omega
    have hupper : b.upper.eq (.infinity false) := by
      cases Bool.or_eq_true_iff.1 hup with
      | inr h => exact h
      | inl h =>
        rw [Binary.lt_iff htop hbu] at h
        have hr := Binary.rank_le_infinity hbu
        have htr : top.rank = Format.double.infinity - 1 := by decide
        have hir : (Binary.infinity false : Binary64).rank = Format.double.infinity := rfl
        rw [Binary.eq, hbu, hinf, hir]
        simpa using (by omega : b.upper.rank = Format.double.infinity)
    have hlex : b.lower.le x := (Binary.le_iff hbl hx).2 (by omega)
    refine ⟨b, hb, (hasKey_sortKey (hv b hb) hx).2 ⟨(Binary.lt_iff hbl hinf).2 hlower, ?_⟩⟩
    rw [admits, hlex, hupper, Bool.or_true, Bool.and_true]

theorem any_numbers_of_any_finds {buckets : List Bucket} {field : String} {d : Document}
    (h : buckets.any (·.finds field d)) : (Fields.numbers d.fields field).any (! ·.isNaN) := by
  obtain ⟨b, -, h⟩ := List.any_eq_true.1 h
  rw [finds, Fields.keys, List.any_map, List.any_filter] at h
  obtain ⟨x, hx, h⟩ := List.any_eq_true.1 h
  exact List.any_eq_true.2 ⟨x, hx, (Bool.and_eq_true_iff.1 h).1⟩

theorem Covers.any_finds {buckets : List Bucket} (hc : Covers buckets)
    (hv : ∀ b ∈ buckets, b.isValid) (field : String) (d : Document) :
    buckets.any (·.finds field d) = (Fields.numbers d.fields field).any (! ·.isNaN) := by
  rw [Bool.eq_iff_iff]
  refine ⟨any_numbers_of_any_finds, fun h => ?_⟩
  obtain ⟨x, hx, hnan⟩ := List.any_eq_true.1 h
  obtain ⟨b, hb, hkey⟩ := List.any_eq_true.1 (hc.any_hasKey hv (by simpa using hnan : x.isNaN = false))
  refine List.any_eq_true.2 ⟨b, hb, List.any_eq_true.2 ⟨sortKey x, ?_, hkey⟩⟩
  exact List.mem_map_of_mem (List.mem_filter.2 ⟨hx, hnan⟩)

end Bucket

namespace Drilldown

variable {r : Drilldown} {score : Scorer} {st : Statistics}

theorem all_filters_false (r : Drilldown) (d : Document) :
    ((r.filters false).all fun f => (f.score? score st d.fields).isSome) =
      { r with buckets := [] }.accepts d := by
  have hsome {b : Bool} : (if b then some (0 : Binary32) else none).isSome = b := by cases b <;> rfl
  have hfilters : r.filters false = r.paths.entries.map pathPlan := List.append_nil _
  rw [hfilters, List.all_map, accepts]
  cases r.rangeField <;>
    exact (congrArg (List.all _) (funext fun entry => hsome)).trans (Bool.and_true _).symm

end Drilldown

namespace Shards

variable {score : Scorer} {table : String} {s : Shards} {p : Plan}

theorem Sound.countP_hits (h : s.Sound table) {hits : List Hit}
    (hhits : hits.Perm (p.hitsAmong score s.statistics s.documents)) (keeps : Document → Bool) :
    (hits.countP fun hit => (s.document? table hit.id).any keeps) =
      s.documents.countP fun d => (p.score? score s.statistics d.fields).isSome && keeps d := by
  rw [hhits.countP_eq, Plan.hitsAmong, List.countP_filterMap]
  refine List.countP_congr fun d hd => ?_
  cases p.score? score s.statistics d.fields with
  | none => simp
  | some x => simp [h.mem_documents.1 hd]

end Shards

namespace Drilldown

variable {score : Scorer} {st : Statistics} {field : String}

def countIn (score : Scorer) (st : Statistics) (p : Plan) (field : String) (docs : List Document)
    (b : Bucket) : Nat :=
  docs.countP fun d => (p.score? score st d.fields).isSome && b.finds field d

theorem map_bucketScore {r : Drilldown} (hr : r.scoreField = none) {shards : Shards}
    (hs : ∀ s ∈ shards, s.Faithful) (p : Plan)
    (hn : (shards.documents.countP fun d =>
      (p.score? score st d.fields).isSome && r.buckets.any (·.finds field d)) < 2 ^ 53) :
    (r.buckets.map fun b =>
        (b, r.bucketScore field (shards.map fun s => (s, (p.scan score st s).docs)) b)) =
      r.buckets.map fun b => (b, .ofNat (countIn score st p field shards.documents b)) := by
  refine List.map_congr_left fun b hb => congrArg (Prod.mk b) (bucketScore_eq hr hs p b ?_)
  refine Nat.lt_of_le_of_lt (List.countP_mono_left fun d _ hd => ?_) hn
  obtain ⟨hd, hfound⟩ := Bool.and_eq_true_iff.1 hd
  exact Bool.and_eq_true_iff.2 ⟨hd, List.any_eq_true.2 ⟨b, hb, hfound⟩⟩

end Drilldown

namespace Service

variable {s : Service} {r : Drilldown} {field : String}

def holds (s : Service) (table field : String) (h : Hit) : Bool :=
  (s.catalog.get? table).any fun t =>
    (t.shards.document? t.name h.id).any fun d => (Fields.numbers d.fields field).any (! ·.isNaN)

theorem fst_drillRanges (hs : s.Sound) (hr : r.check (s.catalog.schemaOrEmpty r.table) = .ok ())
    (hf : r.rangeField = some field) :
    ((drillRanges r).perform s).1 =
      match s.catalog.get? r.table with
      | none => (Query.parse allField (r.query.getD "")).map fun _ =>
        r.buckets.map fun b => (b, r.bucketScore field [] b)
      | some t => (Plan.ofSearch t.schema s.analyzers (r.query.getD "")).bind fun p =>
        if t.shards.any (p.fails scorer t.shards) then .error .oversizedGlob
        else .ok (r.buckets.map fun b => (b, r.bucketScore field
          (t.shards.map fun s => (s, ((p.filtered (r.filters false)).scan scorer
            t.shards.statistics s).docs)) b)) := by
  simp only [drillRanges, perform_bind, perform_ensureOpen, hs.alive, Bool.false_eq_true, if_false,
    perform_get, perform_lift, Drilldown.ranges, hf, Drilldown.prepare_eq hr, Prepared.prepare_eq]
  cases ht : s.catalog.get? r.table with
  | none => cases Query.parse allField (r.query.getD "") <;> rfl
  | some t =>
    cases hp : Plan.ofSearch t.schema s.analyzers (r.query.getD "") with
    | error e => simp only [hp]; rfl
    | ok p =>
      have hmatched := Prepared.matched_restrict
        (p := ⟨t.name, r.query.getD "", t.epoch, t.version, t.shards, p, none⟩)
        (hs.shards ht).faithful (Drilldown.anyOversized_filters (r := r) false) (r.scope false)
      simp only [hp, Except.map, Option.map_some]
      refine (congrArg (· >>= fun parts =>
        Except.ok (r.buckets.map fun b => (b, r.bucketScore field parts b))) hmatched).trans ?_
      show (if t.shards.any (p.fails scorer t.shards) then _ else _) >>= _ = if _ then _ else _
      split <;> rfl

def numbered (s : Service) (r : Drilldown) (field : String) (hits : List Hit) : List Hit :=
  hits.filter fun h => s.accepted { r with buckets := [] } h && s.holds r.table field h

/-- The buckets of a drill-down share out so many hits. -/
structure SharesOut (s : Service) (r : Drilldown) (field : String) (n : Nat) (inBucket : Bucket → Nat) :
    Prop where
  sum : (r.buckets.map inBucket).sum = n
  ranges : n < 2 ^ 53 →
    ((drillRanges r).perform s).1 = .ok (r.buckets.map fun b => (b, .ofNat (inBucket b)))
  total : n < 2 ^ 53 →
    ((r.buckets.map fun b => Binary.ofNat (inBucket b)).foldl (· + ·) 0 : Binary64) = .ofNat n
  hits : ∀ hits, ((search r.table (r.query.getD "") 0 (UInt64.size - 1)).perform s).1 = .ok hits →
    hits.length < UInt64.size - 1 →
    n ≤ (s.numbered r field hits).length ∧
      (Bucket.Covers r.buckets → n = (s.numbered r field hits).length)

def withNumber (s : Service) (r : Drilldown) (field : String) (kind : Binary64 → Bool)
    (hits : List Hit) : List Hit :=
  hits.filter fun h => s.accepted { r with buckets := [] } h && (s.catalog.get? r.table).any fun t =>
    (t.shards.document? t.name h.id).any fun d => (Fields.numbers d.fields field).any kind

theorem length_withNumber (hs : s.Sound) {t : Table} (ht : s.catalog.get? r.table = some t) {p : Plan}
    (field : String) (kind : Binary64 → Bool) {hits : List Hit}
    (hhits : hits.Perm (p.hitsAmong scorer t.shards.statistics t.shards.documents)) :
    (s.withNumber r field kind hits).length = t.shards.documents.countP fun d =>
      ((p.filtered (r.filters false)).score? scorer t.shards.statistics d.fields).isSome &&
        (Fields.numbers d.fields field).any kind := by
  have hkeeps (h : Hit) : (s.accepted { r with buckets := [] } h && (s.catalog.get? r.table).any fun t =>
      (t.shards.document? t.name h.id).any fun d => (Fields.numbers d.fields field).any kind) =
      (t.shards.document? t.name h.id).any fun d =>
        { r with buckets := [] }.accepts d && (Fields.numbers d.fields field).any kind := by
    rw [accepted, ht]
    simp only [Option.any_some, Shards.accepted]
    cases t.shards.document? t.name h.id <;> rfl
  rw [withNumber, ← List.countP_eq_length_filter]
  simp only [hkeeps]
  rw [(hs.shards ht).countP_hits hhits]
  refine List.countP_congr fun d _ => ?_
  rw [Plan.isSome_score?_filtered, Drilldown.all_filters_false, Bool.and_assoc]

theorem numbered_eq (s : Service) (r : Drilldown) (field : String) (hits : List Hit) :
    s.numbered r field hits = s.withNumber r field (! ·.isNaN) hits := rfl

theorem total_of_sum {buckets : List Bucket} {inBucket : Bucket → Nat} {n : Nat}
    (h : (buckets.map inBucket).sum = n) (hn : n < 2 ^ 53) :
    ((buckets.map fun b => Binary.ofNat (inBucket b)).foldl (· + ·) 0 : Binary64) = .ofNat n := by
  have hadd := Binary.foldl_add_ofNat (h.symm ▸ hn)
  rwa [List.map_map, h] at hadd

section

variable (hs : s.Sound) (hc : s.Coherent)
  (hr : r.check (s.catalog.schemaOrEmpty r.table) = .ok ()) (hf : r.rangeField = some field)

include hs hc hr hf

theorem sharesOut_of_none (ht : s.catalog.get? r.table = none) {q : Query}
    (hq : Query.parse allField (r.query.getD "") = .ok q) : s.SharesOut r field 0 fun _ => 0 := by
  have hsum : (r.buckets.map fun _ => 0).sum = 0 := by simp
  refine ⟨hsum, fun _ => ?_, total_of_sum hsum, fun hits h _ => ?_⟩
  · rw [fst_drillRanges hs hr hf, ht]
    dsimp only
    rw [hq]
    rfl
  · rw [fst_search hs hc, ht] at h
    dsimp only at h
    rw [hq] at h
    cases h
    exact ⟨Nat.zero_le _, fun _ => rfl⟩

theorem sharesOut_of_some (hw : r.scoreField = none) (hne : r.buckets ≠ []) {t : Table}
    (ht : s.catalog.get? r.table = some t) {p : Plan}
    (hp : Plan.ofSearch t.schema s.analyzers (r.query.getD "") = .ok p)
    (hfails : t.shards.any (p.fails scorer t.shards) = false)
    (hone : ∀ d ∈ t.shards.documents, (Fields.numbers d.fields field).length ≤ 1) :
    s.SharesOut r field
      ((p.filtered (r.filters true)).hitsAmong scorer t.shards.statistics t.shards.documents).length
      (Drilldown.countIn scorer t.shards.statistics (p.filtered (r.filters false)) field
        t.shards.documents) := by
  have hbuckets := Drilldown.check_of_check hr hf
  have hcount := Plan.length_hitsAmong scorer t.shards.statistics (p.filtered (r.filters true))
    t.shards.documents
  simp only [Drilldown.isSome_score?_filters hf hne] at hcount
  have hsum := Bucket.sum_countP_finds hbuckets hone fun d =>
    ((p.filtered (r.filters false)).score? scorer t.shards.statistics d.fields).isSome
  rw [← hcount] at hsum
  refine ⟨hsum, fun hn => ?_, total_of_sum hsum, fun hits h hlen => ?_⟩
  · have hmap := Drilldown.map_bucketScore hw (hs.shards ht).faithful _ (hcount ▸ hn)
    rw [fst_drillRanges hs hr hf, ht]
    dsimp only
    rw [hp]
    exact (if_neg (Bool.eq_false_iff.1 hfails)).trans (congrArg Except.ok hmap)
  · rw [fst_search hs hc, ht] at h
    dsimp only at h
    rw [Shards.search_of_ok hp, if_neg (by decide)] at h
    obtain ⟨-, rfl⟩ := (hs.shards ht).eq_sort_of_window h hlen
    rw [hcount, numbered_eq, length_withNumber hs ht _ _ (Ranking.sort_perm _)]
    refine ⟨List.countP_mono_left fun d _ hd => ?_, fun hcovers => List.countP_congr fun d _ => ?_⟩
    · obtain ⟨hd, hfound⟩ := Bool.and_eq_true_iff.1 hd
      exact Bool.and_eq_true_iff.2 ⟨hd, Bucket.any_numbers_of_any_finds hfound⟩
    · rw [hcovers.any_finds (Bucket.isValid_of_check hbuckets)]

end

/-- Buckets share out the hits, in the field of the timestamp if no column goes by its name. -/
theorem drillRanges_sharesOut {config : Config} {windows : Bool}
    (h : Service.start config windows = .ok s) (moves : List Move)
    (hr : r.check ((s.after moves).catalog.schemaOrEmpty r.table) = .ok ())
    (hf : r.rangeField = some field) (hne : r.buckets ≠ []) (hw : r.scoreField = none)
    (hone : field = timestampField → ∀ t, (s.after moves).catalog.get? r.table = some t →
      ∀ d ∈ t.shards.documents, (Fields.numbers d.fields field).length ≤ 1) :
    (∀ n, ((drillCount r).perform (s.after moves)).1 = .ok n →
      ∃ inBucket, (s.after moves).SharesOut r field n inBucket) ∧
    ∀ e, ((drillCount r).perform (s.after moves)).1 = .error e →
      ((drillRanges r).perform (s.after moves)).1 = .error e := by
  obtain ⟨hs, hc⟩ := sound_after h moves
  have hindexed := indexed_after h moves
  generalize s.after moves = s at hs hc hindexed hr hone
  rw [fst_drillCount hs hr, fst_drillRanges hs hr hf]
  cases ht : s.catalog.get? r.table with
  | none =>
    dsimp only
    cases hq : Query.parse allField (r.query.getD "") with
    | error e => exact ⟨nofun, fun _ he => by cases he; rfl⟩
    | ok q =>
      refine ⟨fun n hn => ?_, nofun⟩
      cases hn
      exact ⟨_, sharesOut_of_none hs hc hr hf ht hq⟩
  | some t =>
    dsimp only
    have hnumbers : ∀ d ∈ t.shards.documents, (Fields.numbers d.fields field).length ≤ 1 := by
      by_cases htime : field = timestampField
      · exact hone htime t ht
      · exact fun d hd => hindexed.length_numbers_le hs ht hd htime
    cases hp : Plan.ofSearch t.schema s.analyzers (r.query.getD "") with
    | error e => exact ⟨nofun, fun _ he => by cases he; rfl⟩
    | ok p =>
      simp only [Except.bind]
      rw [Plan.count_eq (hs.shards ht).faithful, Shards.any_fails_filtered]
      cases hfails : t.shards.any (p.fails scorer t.shards) with
      | true => exact ⟨nofun, fun _ he => by cases he; rfl⟩
      | false =>
        refine ⟨fun n hn => ?_, nofun⟩
        cases hn
        exact ⟨_, sharesOut_of_some hs hc hr hf hw hne ht hp hfails hnumbers⟩

def smallNumbers : Drilldown :=
  ⟨"t", none, .empty, some "y", [⟨"low", 0, 5⟩, ⟨"high", 5, 9⟩], none, 0, 10⟩

theorem drillRanges_sharesOut_smallNumbers : ∃ s : Service,
    Service.start twoShards true = .ok s ∧
    ((drillCount smallNumbers).perform (s.after twoPaths)).1 = .ok 3 ∧
    ∃ inBucket, (s.after twoPaths).SharesOut smallNumbers "y" 3 inBucket := by
  have hrun : (Service.start twoShards true).toOption.any fun s =>
      (checkNumeric ((s.after twoPaths).catalog.schemaOrEmpty "t") .range "y").toOption = some () &&
      (((s.after twoPaths).catalog.get? "t").any fun t =>
        ((Plan.ofSearch t.schema (s.after twoPaths).analyzers "").bind fun p =>
          (p.filtered (smallNumbers.filters true)).count scorer t.shards).toOption = some 3) := by
    decide +kernel
  have hbuckets : Bucket.check smallNumbers.buckets = .ok () :=
    Bucket.check_of_pairwise (by decide +kernel) (by decide +kernel) (by decide +kernel)
  simp only [Option.any_eq_true, Bool.and_eq_true, decide_eq_true_eq] at hrun
  obtain ⟨s, hs, hnumeric, t, ht, hcount⟩ := hrun
  have h := eq_ok_of_toOption hs
  have hcheck : smallNumbers.check ((s.after twoPaths).catalog.schemaOrEmpty "t") = .ok () :=
    Drilldown.check_of_range rfl rfl rfl (eq_ok_of_toOption hnumeric) hbuckets
  have hcounted := fst_drillCount (sound_after h twoPaths).1 hcheck
  rw [show smallNumbers.table = "t" from rfl, ht] at hcounted
  have hthree := hcounted.trans (eq_ok_of_toOption hcount)
  exact ⟨s, h, hthree, (drillRanges_sharesOut h twoPaths (r := smallNumbers) hcheck rfl
    (List.cons_ne_nil _ _) rfl fun htime => absurd htime (by decide)).1 3 hthree⟩

def twoTimes : List Move :=
  [.ask (.createTable "t"),
    .ask (.put [⟨"1", "t", 5, .ofList [("_timestamp", .integer 100)]⟩]),
    .work 1 0, .work 1 1]

def byTime : Drilldown :=
  ⟨"t", none, .empty, some "_timestamp", [⟨"a", 0, 10⟩, ⟨"b", 100, 200⟩], none, 0, 10⟩

/-- The timestamp and the column are both numbers of the field, in one bucket each. -/
theorem drillRanges_twice : ∃ s : Service, Service.start twoShards true = .ok s ∧
    byTime.check ((s.after twoTimes).catalog.schemaOrEmpty "t") = .ok () ∧
    ((drillCount byTime).perform (s.after twoTimes)).1 = .ok 1 ∧
    ((drillRanges byTime).perform (s.after twoTimes)).1 =
      .ok [(⟨"a", 0, 10⟩, 1), (⟨"b", 100, 200⟩, 1)] ∧
    (1 + 1 : Binary64) ≠ .ofNat 1 := by
  have hrun : (Service.start twoShards true).toOption.any fun s =>
      (checkNumeric ((s.after twoTimes).catalog.schemaOrEmpty "t") .range "_timestamp").toOption =
        some () &&
      (((s.after twoTimes).catalog.get? "t").any fun t =>
        ((Plan.ofSearch t.schema (s.after twoTimes).analyzers "").bind fun p =>
          (p.filtered (byTime.filters true)).count scorer t.shards).toOption = some 1 &&
        ((Plan.ofSearch t.schema (s.after twoTimes).analyzers "").bind fun p =>
          if t.shards.any (p.fails scorer t.shards) then .error .oversizedGlob
          else .ok (byTime.buckets.map fun b => (b, byTime.bucketScore "_timestamp"
            (t.shards.map fun s => (s, ((p.filtered (byTime.filters false)).scan scorer
              t.shards.statistics s).docs)) b))).toOption =
          some [(⟨"a", 0, 10⟩, 1), (⟨"b", 100, 200⟩, 1)]) := by
    decide +kernel
  have hbuckets : Bucket.check byTime.buckets = .ok () :=
    Bucket.check_of_pairwise (by decide +kernel) (by decide +kernel) (by decide +kernel)
  simp only [Option.any_eq_true, Bool.and_eq_true, decide_eq_true_eq] at hrun
  obtain ⟨s, hs, hnumeric, t, ht, hcount, hranges⟩ := hrun
  have h := eq_ok_of_toOption hs
  have hsound := (sound_after h twoTimes).1
  have hcheck : byTime.check ((s.after twoTimes).catalog.schemaOrEmpty "t") = .ok () :=
    Drilldown.check_of_range rfl rfl rfl (eq_ok_of_toOption hnumeric) hbuckets
  have hcounted := fst_drillCount hsound hcheck
  have hscored := fst_drillRanges hsound hcheck rfl
  rw [show byTime.table = "t" from rfl, ht] at hcounted hscored
  exact ⟨s, h, hcheck, hcounted.trans (eq_ok_of_toOption hcount),
    hscored.trans (eq_ok_of_toOption hranges), by decide +kernel⟩

end Service

end Corpus
