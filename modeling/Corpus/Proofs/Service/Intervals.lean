import Corpus.Proofs.Drilldown.Intervals
import Corpus.Proofs.Service.Buckets

/-! Three counts of the numbers in an interval that agree: that of a search which asks a field for them
beside a query, that of a drill-down of the query to their bucket, and the score of the bucket. -/

namespace Corpus

open Corpus.Action Number

def Drilldown.ofBucket (table text field : String) (b : Bucket) (start count : Nat) : Drilldown :=
  ⟨table, some text, .empty, some field, [b], none, start, count⟩

namespace Drilldown

variable {table text field lower : String} {upper : Option String} {b : Bucket} {start count : Nat}

@[simp]
theorem table_ofBucket : (ofBucket table text field b start count).table = table := rfl

@[simp]
theorem query_ofBucket : (ofBucket table text field b start count).query = some text := rfl

theorem check_ofBucket {schema : Schema} (hb : b.IsWritten lower upper)
    (hc : ∀ c, schema.column? field = some c → c.type.isNumeric ∧ c.indexed) :
    (ofBucket table text field b start count).check schema = .ok () :=
  check_of_range rfl rfl rfl (checkNumeric_of_numeric hc) hb.check

theorem accepts_ofBucket (hb : b.IsWritten lower upper) (d : Document) :
    (ofBucket table text field b start count).accepts d = b.finds field d := by
  rw [hb.finds_eq]
  show (true && (false || ((Fields.numbers d.fields field).any b.admits || false))) = _
  rw [Bool.true_and, Bool.false_or, Bool.or_false]

end Drilldown

namespace Service

variable {s : Service} {table text field lower : String} {upper : Option String} {b : Bucket}

def countWithin (s : Service) (table text field : String) (b : Bucket) : Except Error Nat :=
  match s.catalog.get? table with
  | none => (Query.parse allField text).map fun _ => 0
  | some t => (Plan.ofSearch t.schema s.analyzers text).bind fun p =>
    if t.shards.any (p.fails scorer t.shards) then .error .oversizedGlob
    else .ok (Drilldown.countIn scorer t.shards.statistics p field t.shards.documents b)

section

variable (hs : s.Sound) (hb : b.IsWritten lower upper)
  (hc : ∀ c, (s.catalog.schemaOrEmpty table).column? field = some c → c.type.isNumeric ∧ c.indexed)

include hs hb hc

theorem searchCount_eq_countWithin (hw : Text.trim text.toList ≠ []) {q : Query}
    (hq : Query.parse allField text = .ok q) (hn : Query.IsName field) (hid : field ≠ idField)
    (hall : field ≠ allField) :
    ((searchCount table ("(" ++ text ++ ") AND " ++
        (Pattern.range (some lower) upper true false).ask field)).perform s).1 =
      s.countWithin table text field b := by
  rw [fst_searchCount hs, countWithin]
  cases ht : s.catalog.get? table with
  | none =>
    dsimp only
    rw [hb.parse hn hw hq, hq]
    rfl
  | some t =>
    have hschema : s.catalog.schemaOrEmpty table = t.schema := by
      rw [Catalog.schemaOrEmpty, ht]
      rfl
    have hplan := Plan.ofSearch_and_ask s.analyzers hw hq hn
      (Schema.indexing_of_numeric hid hall (hschema ▸ hc)) hb
    dsimp only
    cases hp : Plan.ofSearch t.schema s.analyzers text with
    | error e =>
      rw [hp] at hplan
      exact Shards.searchCount_of_error hplan t.shards
    | ok p =>
      rw [hp] at hplan
      have hfaithful := (hs.shards ht).faithful
      rw [Shards.searchCount_of_ok hplan, Plan.count_runAll_ofBucket hfaithful,
        Plan.count_filtered_ofBucket hfaithful]
      rfl

theorem drillCount_eq_countWithin (text : String) (start count : Nat) :
    ((drillCount (.ofBucket table text field b start count)).perform s).1 =
      s.countWithin table text field b := by
  rw [fst_drillCount hs (Drilldown.check_ofBucket hb hc), countWithin, Drilldown.table_ofBucket,
    Drilldown.query_ofBucket, Option.getD_some]
  cases ht : s.catalog.get? table with
  | none => rfl
  | some t =>
    refine congrArg ((Plan.ofSearch t.schema s.analyzers text).bind ·) (funext fun p => ?_)
    exact Plan.count_filtered_ofBucket (hs.shards ht).faithful p field b 0

theorem drillRanges_eq_countWithin (text : String) (start count : Nat) :
    (∀ n, s.countWithin table text field b = .ok n → n < 2 ^ 53 →
      ((drillRanges (.ofBucket table text field b start count)).perform s).1 =
        .ok [(b, .ofNat n)]) ∧
    ∀ e, s.countWithin table text field b = .error e →
      ((drillRanges (.ofBucket table text field b start count)).perform s).1 = .error e := by
  rw [fst_drillRanges hs (Drilldown.check_ofBucket hb hc) rfl, countWithin,
    Drilldown.table_ofBucket, Drilldown.query_ofBucket, Option.getD_some]
  cases ht : s.catalog.get? table with
  | none =>
    dsimp only
    cases Query.parse allField text with
    | error e => exact ⟨nofun, fun _ he => by cases he; rfl⟩
    | ok q => exact ⟨fun n hn _ => by cases hn; rfl, nofun⟩
  | some t =>
    dsimp only
    cases Plan.ofSearch t.schema s.analyzers text with
    | error e => exact ⟨nofun, fun _ he => by cases he; rfl⟩
    | ok p =>
      simp only [Except.bind]
      cases t.shards.any (p.fails scorer t.shards) with
      | true => exact ⟨nofun, fun _ he => by cases he; rfl⟩
      | false =>
        refine ⟨fun n hn hlt => ?_, nofun⟩
        cases hn
        have hscore := Drilldown.bucketScore_eq (r := .ofBucket table text field b start count) rfl
          (hs.shards ht).faithful p b hlt
        exact congrArg (fun x => Except.ok [(b, x)]) hscore

end

theorem search_eq_countWithin (hs : s.Sound) (hc : s.Coherent) (hb : b.IsWritten lower upper)
    (table text field : String) (start count : Nat) :
    (∀ hits, ((search table text 0 (UInt64.size - 1)).perform s).1 = .ok hits → ∃ n,
      s.countWithin table text field b = .ok n ∧ (hits.length < UInt64.size - 1 →
        n = (hits.filter (s.accepted (.ofBucket table text field b start count))).length)) ∧
    ∀ e, ((search table text 0 (UInt64.size - 1)).perform s).1 = .error e →
      s.countWithin table text field b = .error e := by
  rw [fst_search hs hc, countWithin]
  cases ht : s.catalog.get? table with
  | none =>
    dsimp only
    cases Query.parse allField text with
    | error e => exact ⟨nofun, fun _ he => by cases he; rfl⟩
    | ok q => exact ⟨fun hits h => ⟨0, rfl, fun _ => by cases h; rfl⟩, nofun⟩
  | some t =>
    have hshards := hs.shards ht
    dsimp only
    cases hp : Plan.ofSearch t.schema s.analyzers text with
    | error e =>
      rw [Shards.search_of_error hp]
      exact ⟨nofun, fun _ he => by cases he; rfl⟩
    | ok p =>
      rw [Shards.search_of_ok hp, if_neg (by decide)]
      simp only [Except.bind]
      refine ⟨fun hits h => ⟨_, if_neg ?_, fun hlen => ?_⟩, fun e h => ?_⟩
      · exact Bool.eq_false_iff.1 (Plan.any_fails_of_window hshards.faithful h)
      · obtain ⟨-, rfl⟩ := hshards.eq_sort_of_window h hlen
        have haccepted : s.accepted (.ofBucket table text field b start count) = fun hit =>
            (t.shards.document? t.name hit.id).any fun d => b.finds field d := by
          funext hit
          rw [accepted, Drilldown.table_ofBucket, ht, Option.any_some, Shards.accepted]
          exact congrArg (Option.any · _) (funext (Drilldown.accepts_ofBucket hb))
        rw [← List.countP_eq_length_filter, haccepted,
          hshards.countP_hits (Ranking.sort_perm _) fun d => b.finds field d, Drilldown.countIn]
      · rw [Plan.window_eq hshards.faithful] at h
        split at h
        next hf =>
          cases h
          exact if_pos hf
        next => cases h

theorem exists_parse_of_search (hs : s.Sound) (hc : s.Coherent) {hits : List Hit} {start count : Nat}
    (h : ((search table text start count).perform s).1 = .ok hits) :
    ∃ q, Query.parse allField text = .ok q := by
  rw [fst_search hs hc] at h
  cases ht : s.catalog.get? table with
  | none =>
    rw [ht] at h
    obtain ⟨q, hq, -⟩ := map_eq_ok.1 h
    exact ⟨q, hq⟩
  | some t =>
    rw [ht] at h
    obtain ⟨p, hp, -⟩ := bind_eq_ok.1 h
    obtain ⟨q, hq, -⟩ := Plan.ofSearch_eq_ok.1 hp
    exact ⟨q, hq⟩

/-- A search, a drill-down and a bucket count the same numbers between two bounds. -/
theorem interval_counts_agree {config : Config} {windows : Bool}
    (h : Service.start config windows = .ok s) (moves : List Move)
    (hw : Text.trim text.toList ≠ []) (hn : Query.IsName field) (hid : field ≠ idField)
    (hall : field ≠ allField)
    (hcolumn : ∀ c, ((s.after moves).catalog.schemaOrEmpty table).column? field = some c →
      c.type.isNumeric ∧ c.indexed)
    (hb : b.IsWritten lower upper) (start count : Nat) :
    (∀ hits, ((search table text 0 (UInt64.size - 1)).perform (s.after moves)).1 = .ok hits → ∃ n,
      ((searchCount table ("(" ++ text ++ ") AND " ++
        (Pattern.range (some lower) upper true false).ask field)).perform (s.after moves)).1 = .ok n ∧
      ((drillCount (.ofBucket table text field b start count)).perform (s.after moves)).1 = .ok n ∧
      (n < 2 ^ 53 → ((drillRanges (.ofBucket table text field b start count)).perform
        (s.after moves)).1 = .ok [(b, .ofNat n)]) ∧
      (hits.length < UInt64.size - 1 → n = (hits.filter
        ((s.after moves).accepted (.ofBucket table text field b start count))).length)) ∧
    ∀ q e, Query.parse allField text = .ok q →
      ((search table text 0 (UInt64.size - 1)).perform (s.after moves)).1 = .error e →
      ((searchCount table ("(" ++ text ++ ") AND " ++
        (Pattern.range (some lower) upper true false).ask field)).perform (s.after moves)).1 = .error e ∧
      ((drillCount (.ofBucket table text field b start count)).perform (s.after moves)).1 = .error e ∧
      ((drillRanges (.ofBucket table text field b start count)).perform (s.after moves)).1 =
        .error e := by
  obtain ⟨hs, hc⟩ := sound_after h moves
  generalize s.after moves = s at hs hc hcolumn
  obtain ⟨hok, herror⟩ := search_eq_countWithin hs hc hb table text field start count
  obtain ⟨hscore, hfail⟩ := drillRanges_eq_countWithin hs hb hcolumn text start count
  have hdrill := drillCount_eq_countWithin hs hb hcolumn text start count
  constructor
  · intro hits hhits
    obtain ⟨q, hq⟩ := exists_parse_of_search hs hc hhits
    obtain ⟨n, hcount, hlen⟩ := hok hits hhits
    have hsearch := searchCount_eq_countWithin hs hb hcolumn hw hq hn hid hall
    exact ⟨n, hsearch.trans hcount, hdrill.trans hcount, hscore n hcount, hlen⟩
  · intro q e hq he
    have hcount := herror e he
    have hsearch := searchCount_eq_countWithin hs hb hcolumn hw hq hn hid hall
    exact ⟨hsearch.trans hcount, hdrill.trans hcount, hfail e hcount⟩

theorem interval_counts_agree_twoPaths : ∃ s : Service, Service.start twoShards true = .ok s ∧
    ((searchCount "t" "(x:a) AND y:[1 TO 7\x7d").perform (s.after twoPaths)).1 = .ok 1 ∧
    ((drillCount (.ofBucket "t" "x:a" "y" ⟨"low", 1, 7⟩ 0 10)).perform (s.after twoPaths)).1 = .ok 1 ∧
    ((drillRanges (.ofBucket "t" "x:a" "y" ⟨"low", 1, 7⟩ 0 10)).perform (s.after twoPaths)).1 =
      .ok [(⟨"low", 1, 7⟩, 1)] := by
  have hrun : (Service.start twoShards true).toOption.any fun s =>
      ((s.after twoPaths).catalog.schemaOrEmpty "t").columns = [] &&
      ((search "t" "x:a" 0 (UInt64.size - 1)).perform (s.after twoPaths)).1.toOption.any fun hits =>
        hits.length = 2 &&
        (hits.filter ((s.after twoPaths).accepted
          (.ofBucket "t" "x:a" "y" ⟨"low", 1, 7⟩ 0 10))).length = 1 := by
    decide +kernel
  have hb : (⟨"low", 1, 7⟩ : Bucket).IsWritten "1" (some "7") :=
    ⟨by decide +kernel, by decide +kernel, by decide +kernel, by decide +kernel,
      by decide +kernel, by decide +kernel, by decide +kernel⟩
  simp only [Option.any_eq_true, Bool.and_eq_true, decide_eq_true_eq] at hrun
  obtain ⟨s, hs, hcolumns, hits, hhits, htwo, hone⟩ := hrun
  have h := eq_ok_of_toOption hs
  have hw : Text.trim "x:a".toList ≠ [] := by decide
  have hcolumn : ∀ c, ((s.after twoPaths).catalog.schemaOrEmpty "t").column? "y" = some c →
      c.type.isNumeric ∧ c.indexed := by
    intro c hc
    rw [Schema.column?, hcolumns] at hc
    cases hc
  obtain ⟨n, hsearch, hdrill, hranges, hlen⟩ := (interval_counts_agree h twoPaths hw
    (by decide +kernel) (by decide) (by decide) hcolumn hb 0 10).1 hits (eq_ok_of_toOption hhits)
  have hn : n = 1 := (hlen (htwo ▸ by decide)).trans hone
  subst hn
  exact ⟨s, h, hsearch, hdrill, hranges (by decide)⟩

end Service

end Corpus
