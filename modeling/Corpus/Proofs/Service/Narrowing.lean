import Corpus.Proofs.Drilldown.Filters
import Corpus.Proofs.Service.Uncached

/-! Without a cache a drill-down finds what the plain search finds of the documents that it accepts. -/

namespace Corpus

open Corpus.Action Number

namespace Prepared

theorem plan_restrict (p : Prepared) (filters : List Plan) (scope : Scope) :
    (p.restrict filters scope).plan = p.plan.filtered filters := by
  rw [restrict, Plan.filtered]
  split <;> rfl

theorem shards_restrict (p : Prepared) (filters : List Plan) (scope : Scope) :
    (p.restrict filters scope).shards = p.shards := by
  rw [restrict]
  split <;> rfl

theorem fst_window_new_zero (p : Prepared) (start count : Nat) :
    (p.window start count (.new 0)).1 =
      if count = 0 then .ok [] else p.plan.window scorer p.shards start count := by
  rw [window]
  split
  next => rfl
  next =>
    have hget : (Cache.new 0 : WindowCache).get? (p.key start count) = (none, .new 0) := rfl
    rw [hget]
    dsimp only
    cases p.plan.window scorer p.shards start count <;> rfl

end Prepared

theorem Drilldown.prepare_eq {r : Drilldown} {c : Catalog}
    (hr : r.check (c.schemaOrEmpty r.table) = .ok ()) (analyzers : Analyzers) (byRange : Bool) :
    r.prepare c analyzers byRange =
      (Prepared.prepare c analyzers r.table (r.query.getD "")).map
        (·.map (·.restrict (r.filters byRange) (r.scope byRange))) := by
  rw [prepare, hr]
  cases Prepared.prepare c analyzers r.table (r.query.getD "") <;> rfl

namespace Shards

variable {score : Scorer} {table : String} {s : Shards} {p : Plan}

theorem Sound.eq_sort_of_window (h : s.Sound table) {hits : List Hit}
    (hw : p.window score s 0 (UInt64.size - 1) = .ok hits) (hn : hits.length < UInt64.size - 1) :
    s.any (p.fails score s) = false ∧
      hits = Ranking.sort (p.hitsAmong score s.statistics s.documents) := by
  have hf := Plan.any_fails_of_window h.faithful hw
  rw [Plan.window_eq h.faithful, if_neg (Bool.eq_false_iff.1 hf), List.drop_zero, Nat.zero_add,
    Nat.min_self] at hw
  obtain rfl := Except.ok.inj hw
  rw [List.length_take] at hn
  exact ⟨hf, List.take_of_length_le (by omega)⟩

section

variable {r : Drilldown} {schema : Schema}

theorem any_fails_filtered (r : Drilldown) (p : Plan) :
    s.any ((p.filtered (r.filters true)).fails score s) = s.any (p.fails score s) :=
  congrArg s.any (funext (Plan.fails_filtered (Drilldown.anyOversized_filters true) s p))

theorem Sound.filtered_eq (h : s.Sound table) (hc : r.check schema = .ok ())
    (hb : ∀ b ∈ r.buckets, b.lower.lt (.infinity false)) {hits : List Hit}
    (hw : p.window score s 0 (UInt64.size - 1) = .ok hits) (hn : hits.length < UInt64.size - 1)
    (hp : ∀ hit ∈ hits, hit.score + 0 = hit.score) :
    (∀ start count, (p.filtered (r.filters true)).window score s start count =
        .ok (((hits.filter (s.accepted table r)).drop start).take count)) ∧
      (p.filtered (r.filters true)).count score s =
        .ok (hits.filter (s.accepted table r)).length := by
  obtain ⟨hf, hhits⟩ := h.eq_sort_of_window hw hn
  have hperm := Ranking.sort_perm (p.hitsAmong score s.statistics s.documents)
  have hsort := h.sort_filtered hc hb fun hit hm => hp hit (hhits ▸ hperm.mem_iff.2 hm)
  have hlen := List.length_filter_le (s.accepted table r) hits
  rw [← hhits] at hsort
  constructor
  · intro start count
    rw [Plan.window_eq h.faithful, any_fails_filtered, if_neg (Bool.eq_false_iff.1 hf), hsort,
      drop_take_min (by omega)]
  · rw [Plan.count_eq h.faithful, any_fails_filtered, if_neg (Bool.eq_false_iff.1 hf), ← hsort,
      (Ranking.sort_perm _).length_eq]

theorem Sound.filtered_error (h : s.Sound table) {e : Error} {start count : Nat}
    (hw : p.window score s start count = .error e) (r : Drilldown) :
    (∀ start count, (p.filtered (r.filters true)).window score s start count = .error e) ∧
      (p.filtered (r.filters true)).count score s = .error e := by
  rw [Plan.window_eq h.faithful] at hw
  split at hw
  next hf =>
    cases hw
    refine ⟨fun start count => ?_, ?_⟩
    · rw [Plan.window_eq h.faithful, any_fails_filtered, if_pos hf]
    · rw [Plan.count_eq h.faithful, any_fails_filtered, if_pos hf]
  next => cases hw

end

end Shards

namespace Service

variable {s : Service}

theorem uncached_after (s : Service) (moves : List Move) :
    s.uncached.after moves = (s.after moves).uncached := by
  induction moves generalizing s with
  | nil => rfl
  | cons m rest ih =>
    have hm : m.apply s.uncached = (m.apply s).uncached := by
      cases m with
      | ask r => exact snd_run_uncached r s
      | work limit shard => rfl
    exact (congrArg (after · rest) hm).trans (ih _)

theorem cache_after {config : Config} {windows : Bool} (h : Service.start config windows = .ok s)
    (hc : config.cacheSize = 0) (moves : List Move) : (s.after moves).cache = .new 0 := by
  have hs : s.uncached = s := by
    obtain ⟨-, -, h⟩ := bind_eq_ok.1 h
    cases h
    simp [uncached, withCache, ← hc]
  have hcache := congrArg cache (uncached_after s moves)
  rwa [hs] at hcache

variable {r : Drilldown}

theorem fst_drillSearch_of_cache (hs : s.Sound) (hc : s.cache = .new 0)
    (hr : r.check (s.catalog.schemaOrEmpty r.table) = .ok ()) :
    ((drillSearch r).perform s).1 =
      match s.catalog.get? r.table with
      | none => (Query.parse allField (r.query.getD "")).map fun _ => []
      | some t => (Plan.ofSearch t.schema s.analyzers (r.query.getD "")).bind fun p =>
        if r.count = 0 then .ok []
        else (p.filtered (r.filters true)).window scorer t.shards r.start r.count := by
  have hlook := congrArg Prod.fst
    (perform_look hs (fun s => r.prepare s.catalog s.analyzers true) r.start r.count)
  refine hlook.trans ?_
  rw [Drilldown.prepare_eq hr, Prepared.prepare_eq]
  cases s.catalog.get? r.table with
  | none => cases Query.parse allField (r.query.getD "") <;> rfl
  | some t =>
    cases hp : Plan.ofSearch t.schema s.analyzers (r.query.getD "") with
    | error e => simp [hp, Except.map, Except.bind]
    | ok p =>
      simp only [hp, Except.map, Except.bind, Option.map_some, hc, Prepared.fst_window_new_zero,
        Prepared.plan_restrict, Prepared.shards_restrict]

theorem fst_drillCount (hs : s.Sound) (hr : r.check (s.catalog.schemaOrEmpty r.table) = .ok ()) :
    ((drillCount r).perform s).1 =
      match s.catalog.get? r.table with
      | none => (Query.parse allField (r.query.getD "")).map fun _ => 0
      | some t => (Plan.ofSearch t.schema s.analyzers (r.query.getD "")).bind fun p =>
        (p.filtered (r.filters true)).count scorer t.shards := by
  simp only [drillCount, perform_bind, perform_ensureOpen, hs.alive, Bool.false_eq_true, if_false,
    perform_get, perform_lift, Drilldown.prepare_eq hr, Prepared.prepare_eq]
  cases s.catalog.get? r.table with
  | none => cases Query.parse allField (r.query.getD "") <;> rfl
  | some t =>
    cases hp : Plan.ofSearch t.schema s.analyzers (r.query.getD "") with
    | error e => simp [hp, Except.map, Except.bind]
    | ok p =>
      simp [hp, Except.map, Except.bind, countMatches, Prepared.count, Prepared.plan_restrict,
        Prepared.shards_restrict]

def accepted (s : Service) (r : Drilldown) (h : Hit) : Bool :=
  (s.catalog.get? r.table).any fun t => t.shards.accepted t.name r h

/-- A drill-down is a filter on the hits of its query. -/
theorem drillSearch_narrows {config : Config} {windows : Bool}
    (h : Service.start config windows = .ok s) (hc : config.cacheSize = 0) (moves : List Move)
    {r : Drilldown} (hr : r.check ((s.after moves).catalog.schemaOrEmpty r.table) = .ok ())
    (hb : ∀ b ∈ r.buckets, b.lower.lt (.infinity false)) :
    (∀ hits, ((search r.table (r.query.getD "") 0 (UInt64.size - 1)).perform (s.after moves)).1 =
        .ok hits →
      hits.length < UInt64.size - 1 → (∀ hit ∈ hits, hit.score + 0 = hit.score) →
      (∀ start count, ((drillSearch { r with start, count }).perform (s.after moves)).1 =
        .ok (((hits.filter ((s.after moves).accepted r)).drop start).take count)) ∧
      ((drillCount r).perform (s.after moves)).1 =
        .ok (hits.filter ((s.after moves).accepted r)).length) ∧
    ∀ e, ((search r.table (r.query.getD "") 0 (UInt64.size - 1)).perform (s.after moves)).1 =
        .error e →
      (∀ start count, 0 < count →
        ((drillSearch { r with start, count }).perform (s.after moves)).1 = .error e) ∧
      ((drillCount r).perform (s.after moves)).1 = .error e := by
  obtain ⟨hs, hcoh⟩ := sound_after h moves
  have hcache := cache_after h hc moves
  generalize s.after moves = s at hs hcoh hcache hr
  have hdrill (start count : Nat) := fst_drillSearch_of_cache (r := { r with start, count }) hs hcache hr
  have hcount := fst_drillCount hs hr
  have hsearch := fst_search hs hcoh r.table (r.query.getD "") 0 (UInt64.size - 1)
  simp only [hdrill]
  rw [hsearch, hcount]
  cases ht : s.catalog.get? r.table with
  | none =>
    dsimp only
    cases Query.parse allField (r.query.getD "") with
    | error e => exact ⟨nofun, fun _ he => ⟨fun _ _ _ => he, by cases he; rfl⟩⟩
    | ok q =>
      refine ⟨fun hits he _ _ => ?_, nofun⟩
      cases he
      exact ⟨fun start count => by simp [Except.map], rfl⟩
  | some t =>
    have hshards := hs.shards ht
    have hacc : s.accepted r = t.shards.accepted t.name r := funext fun hit => by rw [accepted, ht]; rfl
    dsimp only
    rw [hacc]
    cases hp : Plan.ofSearch t.schema s.analyzers (r.query.getD "") with
    | error e =>
      rw [Shards.search_of_error hp]
      exact ⟨nofun, fun _ he => ⟨fun _ _ _ => by cases he; rfl, by cases he; rfl⟩⟩
    | ok p =>
      rw [Shards.search_of_ok hp, if_neg (by decide)]
      refine ⟨fun hits hw hn hscores => ?_, fun e hw => ?_⟩
      · obtain ⟨hwindow, hlen⟩ := hshards.filtered_eq hr hb hw hn hscores
        refine ⟨fun start count => ?_, hlen⟩
        by_cases hzero : count = 0
        · simp [hzero, Except.bind]
        · exact (if_neg hzero).trans (hwindow start count)
      · obtain ⟨hwindow, hcounted⟩ := hshards.filtered_error hw r
        exact ⟨fun start count hpos => (if_neg (Nat.ne_of_gt hpos)).trans (hwindow start count),
          hcounted⟩

def twoPaths : List Move :=
  [.ask (.createTable "t"),
    .ask (.put [⟨"1", "t", 0, .ofList [("x", .facet ["a", "b"]), ("y", .double 1)]⟩,
      ⟨"2", "t", 0, .ofList [("x", .facet ["a"]), ("y", .double 7)]⟩,
      ⟨"3", "t", 0, .ofList [("x", .facet ["b"]), ("y", .double 1)]⟩]),
    .work 3 0, .work 3 1]

def twoShards : Config :=
  { Config.standard with indexShards := 2, cacheSize := 0, defaultAnalyzer := "keyword" }

def belowPath : Drilldown :=
  ⟨"t", none, .ofList [("x", ["a"])], some "y", [⟨"low", 0, 5⟩], none, 0, 10⟩

theorem drillSearch_narrows_belowPath : ∃ s : Service,
    Service.start twoShards true = .ok s ∧
    ((search "t" "" 0 (UInt64.size - 1)).perform (s.after twoPaths)).1 =
      .ok [⟨"1", 1⟩, ⟨"2", 1⟩, ⟨"3", 1⟩] ∧
    ((drillSearch { belowPath with start := 0, count := 10 }).perform (s.after twoPaths)).1 =
      .ok [⟨"1", 1⟩] := by
  have hrun : (Service.start twoShards true).toOption.any fun s =>
      ((search "t" "" 0 (UInt64.size - 1)).perform (s.after twoPaths)).1.toOption =
        some [⟨"1", 1⟩, ⟨"2", 1⟩, ⟨"3", 1⟩] &&
      (belowPath.check ((s.after twoPaths).catalog.schemaOrEmpty "t")).toOption = some () &&
      [⟨"1", 1⟩, ⟨"2", 1⟩, ⟨"3", 1⟩].filter ((s.after twoPaths).accepted belowPath) =
        [⟨"1", 1⟩] := by
    decide +kernel
  simp only [Option.any_eq_true, Bool.and_eq_true, decide_eq_true_eq] at hrun
  obtain ⟨s, hs, ⟨hsearch, hcheck⟩, hkept⟩ := hrun
  have h := eq_ok_of_toOption hs
  have hhits := eq_ok_of_toOption hsearch
  have hdrill := ((drillSearch_narrows h rfl twoPaths (r := belowPath) (eq_ok_of_toOption hcheck)
    (by decide +kernel)).1 _ hhits (by decide) (by decide +kernel)).1 0 10
  rw [hkept] at hdrill
  exact ⟨s, h, hhits, hdrill⟩

end Service

end Corpus
