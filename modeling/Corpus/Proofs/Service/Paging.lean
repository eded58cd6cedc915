import Corpus.Proofs.Search.Cache
import Corpus.Proofs.Service.History

/-! Windows, counts and pages of a search, in every state that a service can come to. -/

namespace Corpus

open Corpus.Action Number

theorem drop_take_min {α : Type} {l : List α} {m : Nat} (h : l.length ≤ m) (start count : Nat) :
    (l.take (min (start + count) m)).drop start = (l.drop start).take count := by
  have ht : l.take (min (start + count) m) = l.take (start + count) :=
    List.take_eq_take_iff.2 (by omega)
  rw [ht, List.drop_take, Nat.add_sub_cancel_left]

namespace Plan

variable {score : Scorer}

theorem map_id_hitsAmong_sublist (st : Statistics) (p : Plan) (docs : List Document) :
    ((p.hitsAmong score st docs).map (·.id)).Sublist (docs.map (·.id)) := by
  induction docs with
  | nil => exact .slnil
  | cons d rest ih =>
    rw [hitsAmong, List.filterMap_cons]
    cases hs : p.score? score st d.fields with
    | none => exact .cons _ ih
    | some x => exact ih.cons_cons d.id

end Plan

namespace Ranking

theorem pairwise_before {hits : List Hit} (ho : Ordered hits) (hn : (hits.map (·.id)).Nodup) :
    hits.Pairwise fun a b => a.before b := by
  refine (ho.and (List.pairwise_map.1 hn)).imp fun {a b} ⟨hab, hid⟩ => ?_
  cases h : a.before b with
  | true => rfl
  | false => exact absurd (congrArg Hit.id (Hit.eq_of_not_before (by simp [h]) hab)) hid

end Ranking

namespace Shards

variable {score : Scorer} {schema : Schema} {analyzers : Analyzers} {table : String} {s : Shards}

theorem Sound.search_eq (hs : s.Sound table) {query : String} {p : Plan}
    (hp : Plan.ofSearch schema analyzers query = .ok p) (hf : s.any (p.fails score s) = false)
    (hn : (p.hitsAmong score s.statistics s.documents).length < UInt64.size) (start count : Nat) :
    s.search score schema analyzers query start count =
      .ok (((Ranking.sort (p.hitsAmong score s.statistics s.documents)).drop start).take count) := by
  have hlen := (Ranking.sort_perm (p.hitsAmong score s.statistics s.documents)).length_eq
  rw [search_of_ok hp, Plan.window_eq hs.faithful, if_neg (Bool.eq_false_iff.1 hf),
    drop_take_min (by omega)]
  split
  next h => rw [h, List.take_zero]
  next => rfl

theorem Sound.pages (hs : s.Sound table) {query : String} {n : Nat} (hn : n < UInt64.size)
    (hc : s.searchCount score schema analyzers query = .ok n) :
    ∃ hits : List Hit, hits.length = n ∧ (hits.map (·.id)).Nodup ∧
      (hits.Pairwise fun a b => a.before b) ∧ ∀ start count,
        s.search score schema analyzers query start count =
          .ok ((hits.drop start).take count) := by
  cases hp : Plan.ofSearch schema analyzers query with
  | error e =>
    rw [searchCount_of_error hp] at hc
    cases hc
  | ok p =>
    rw [searchCount_of_ok hp] at hc
    have hf := Plan.any_fails_of_count hs.faithful hc
    rw [Plan.count_eq hs.faithful, if_neg (Bool.eq_false_iff.1 hf)] at hc
    have hlen := Except.ok.inj hc
    have hperm := Ranking.sort_perm (p.hitsAmong score s.statistics s.documents)
    have hnodup : ((Ranking.sort (p.hitsAmong score s.statistics s.documents)).map (·.id)).Nodup :=
      (hperm.map _).nodup_iff.2 (hs.nodup_ids.sublist (p.map_id_hitsAmong_sublist _ _))
    exact ⟨_, hperm.length_eq.trans hlen, hnodup,
      Ranking.pairwise_before (Ranking.ordered_sort _) hnodup,
      hs.search_eq hp hf (hlen.trans_lt hn)⟩

end Shards

namespace Service

variable {s t : Service} {g : List Happening}

theorem Sound.shards {table : String} {t : Table} (hs : s.Sound)
    (ht : s.catalog.get? table = some t) : t.shards.Sound t.name :=
  (hs.indexer.catalog.shards (hs.indexer.catalog.get? ht).2.1).2

def Coherent (s : Service) : Prop := Prepared.CoherentOn (· = none) s.catalog s.analyzers s.cache

theorem Coherent.step (hc : s.Coherent) (hs : s.Sound) (h : Step s g t) : t.Coherent := by
  have hl := (hs.step h).2
  cases h with
  | look start count hp =>
    refine Prepared.CoherentOn.snd_window hc hs.indexer.catalog (fun hscope => ?_) start count
    obtain ⟨_, _, hp⟩ := hp hscope
    exact Prepared.from_of_prepare hp
  | name => exact hc
  | forget => exact .clear _ s.catalog s.analyzers s.cache
  | create | drop | setSchema | put | delete | clear | work => exact Prepared.CoherentOn.later hc hl

theorem Coherent.steps (hc : s.Coherent) (hs : s.Sound) (h : Steps s g t) : t.Coherent := by
  induction h with
  | nil => exact hc
  | cons h _ ih => exact ih (hc.step hs h) (hs.step h).1

theorem Coherent.start {config : Config} {windows : Bool}
    (h : Service.start config windows = .ok s) : s.Coherent := by
  obtain ⟨-, -, h⟩ := bind_eq_ok.1 h
  cases h
  exact .new _ _ _ config.cacheSize

theorem sound_after {config : Config} {windows : Bool} (h : Service.start config windows = .ok s)
    (moves : List Move) : (s.after moves).Sound ∧ (s.after moves).Coherent :=
  ⟨(Sound.steps (.start h) (steps_after (.start h) moves)).1,
    (Coherent.start h).steps (.start h) (steps_after (.start h) moves)⟩

theorem perform_prepare {α : Type} (hs : s.Sound) (table query : String)
    (f : Option Prepared → Action α) :
    Action.perform (do
      ensureOpen
      let s ← get
      f (← Prepared.prepare s.catalog s.analyzers table query)) s =
      match s.catalog.get? table with
      | none =>
        match Query.parse allField query with
        | .error e => (.error e, s)
        | .ok _ => (f none).perform s
      | some t =>
        match Plan.ofSearch t.schema s.analyzers query with
        | .error e => (.error e, s)
        | .ok plan =>
          (f (some ⟨t.name, query, t.epoch, t.version, t.shards, plan, none⟩)).perform s := by
  simp only [perform_bind, perform_ensureOpen, hs.alive, Bool.false_eq_true, if_false, perform_get,
    perform_lift, Prepared.prepare_eq]
  cases s.catalog.get? table with
  | none => cases Query.parse allField query <;> rfl
  | some t =>
    dsimp only
    cases Plan.ofSearch t.schema s.analyzers query <;> rfl

theorem fst_search (hs : s.Sound) (hc : s.Coherent) (table query : String) (start count : Nat) :
    ((search table query start count).perform s).1 =
      match s.catalog.get? table with
      | none => (Query.parse allField query).map fun _ => []
      | some t => t.shards.search scorer t.schema s.analyzers query start count := by
  rw [search, perform_prepare hs]
  cases ht : s.catalog.get? table with
  | none => cases Query.parse allField query <;> rfl
  | some t =>
    dsimp only
    cases hp : Plan.ofSearch t.schema s.analyzers query with
    | error e => exact (Shards.search_of_error hp ..).symm
    | ok plan =>
      have hprep : Prepared.prepare s.catalog s.analyzers table query =
          .ok (some ⟨t.name, query, t.epoch, t.version, t.shards, plan, none⟩) := by
        rw [Prepared.prepare_eq, ht]
        dsimp only
        rw [hp]
        rfl
      have hw := Prepared.CoherentOn.fst_window hc hs.indexer.catalog (Prepared.from_of_prepare hprep)
        rfl start count
      rw [Shards.search_of_ok hp, ← hw]
      simp [window]

theorem fst_searchCount (hs : s.Sound) (table query : String) :
    ((searchCount table query).perform s).1 =
      match s.catalog.get? table with
      | none => (Query.parse allField query).map fun _ => 0
      | some t => t.shards.searchCount scorer t.schema s.analyzers query := by
  rw [searchCount, perform_prepare hs]
  cases ht : s.catalog.get? table with
  | none => cases Query.parse allField query <;> rfl
  | some t =>
    dsimp only
    cases hp : Plan.ofSearch t.schema s.analyzers query with
    | error e => exact (Shards.searchCount_of_error hp t.shards).symm
    | ok plan => exact (Shards.searchCount_of_ok hp t.shards).symm

theorem snd_search (hs : s.Sound) (table query : String) (start count : Nat) :
    ∃ cache, ((search table query start count).perform s).2 = { s with cache } :=
  snd_perform_look hs (fun s => Prepared.prepare s.catalog s.analyzers table query) start count

theorem steps_search (hs : s.Sound) (table query : String) (start count : Nat) :
    Steps s [] ((search table query start count).perform s).2 :=
  steps_look hs (fun s => Prepared.prepare s.catalog s.analyzers table query) start count
    fun _ h _ => ⟨table, query, h⟩

/-- All windows of a search are parts of one list. -/
def Sees (s : Service) (table query : String) (hits : List Hit) : Prop :=
  ∀ start count,
    ((search table query start count).perform s).1 = .ok ((hits.drop start).take count)

theorem Sees.search {table query : String} {hits : List Hit} (h : s.Sees table query hits)
    (hs : s.Sound) (hc : s.Coherent) (start count : Nat) :
    ((search table query start count).perform s).2.Sees table query hits := by
  have hsteps := steps_search hs table query start count
  have hs' := (hs.steps hsteps).1
  have hc' := hc.steps hs hsteps
  obtain ⟨cache, hcache⟩ := snd_search hs table query start count
  rw [hcache] at hs' hc' ⊢
  exact fun start count => (fst_search hs' hc' table query start count).trans
    ((fst_search hs hc table query start count).symm.trans (h start count))

def pages (table query : String) : Nat → List Nat → Action (List (List Hit))
  | _, [] => return []
  | start, count :: counts => do
    let page ← search table query start count
    return page :: (← pages table query (start + count) counts)

theorem Sees.pages {table query : String} {hits : List Hit} (h : s.Sees table query hits)
    (hs : s.Sound) (hc : s.Coherent) (start : Nat) (counts : List Nat) :
    ((pages table query start counts).perform s).1.map List.flatten =
      .ok ((hits.drop start).take counts.sum) := by
  induction counts generalizing s start with
  | nil => rw [List.sum_nil, List.take_zero]; rfl
  | cons count rest ih =>
    -- the list of hits outlives a page, though the cache may not be the same after it
    have hsteps := steps_search hs table query start count
    have hrest := ih (h.search hs hc start count) (hs.steps hsteps).1 (hc.steps hs hsteps)
      (start + count)
    have hpage := h start count
    rw [Service.pages, perform_bind]
    generalize (Service.search table query start count).perform s = p at hrest hpage
    obtain ⟨answer, s'⟩ := p
    cases hpage
    dsimp only at hrest ⊢
    rw [bind_pure_comp, perform_map]
    obtain ⟨later, hlater, hflat⟩ := map_eq_ok.1 hrest
    rw [hlater, List.sum_cons, List.take_add, List.drop_drop, ← hflat]
    rfl

/-- Counts, windows and pages are those of one list of hits. -/
theorem search_pages {config : Config} {windows : Bool} (h : Service.start config windows = .ok s)
    (moves : List Move) {table query : String} {n : Nat} (hn : n < UInt64.size)
    (hc : ((searchCount table query).perform (s.after moves)).1 = .ok n) :
    ∃ hits : List Hit, hits.length = n ∧ (hits.map (·.id)).Nodup ∧
      (hits.Pairwise fun a b => a.before b) ∧
      (∀ count, n ≤ count →
        ((search table query 0 count).perform (s.after moves)).1 = .ok hits) ∧
      (∀ start count, ((search table query start count).perform (s.after moves)).1 =
        .ok ((hits.drop start).take count)) ∧
      ∀ counts, ((pages table query 0 counts).perform (s.after moves)).1.map List.flatten =
        .ok (hits.take counts.sum) := by
  have hsteps := steps_after (.start h) moves
  have hs := (Sound.steps (.start h) hsteps).1
  have hcoh := (Coherent.start h).steps (.start h) hsteps
  generalize s.after moves = s at hs hcoh hc
  suffices ∃ hits : List Hit, hits.length = n ∧ (hits.map (·.id)).Nodup ∧
      (hits.Pairwise fun a b => a.before b) ∧ s.Sees table query hits by
    obtain ⟨hits, hlen, hnodup, hpair, hsees⟩ := this
    refine ⟨hits, hlen, hnodup, hpair, fun count hn => ?_, hsees, hsees.pages hs hcoh 0⟩
    rw [hsees, List.drop_zero, List.take_of_length_le (hlen.trans_le hn)]
  rw [fst_searchCount hs] at hc
  cases ht : s.catalog.get? table with
  | none =>
    rw [ht] at hc
    obtain ⟨q, hq, rfl⟩ := map_eq_ok.1 hc
    refine ⟨[], rfl, .nil, .nil, fun start count => ?_⟩
    rw [fst_search hs hcoh, ht, List.drop_nil, List.take_nil]
    dsimp only
    rw [hq]
    rfl
  | some t =>
    rw [ht] at hc
    obtain ⟨hits, hlen, hnodup, hpair, hwin⟩ := (hs.shards ht).pages hn hc
    refine ⟨hits, hlen, hnodup, hpair, fun start count => ?_⟩
    rw [fst_search hs hcoh, ht]
    exact hwin start count

def twoRecords : List Move :=
  [.ask (.createTable "t"),
    .ask (.put [⟨"1", "t", 0, .ofList [("x", .string "a")]⟩,
      ⟨"2", "t", 0, .ofList [("x", .string "a")]⟩]),
    .work 2 0, .work 2 1]

theorem search_pages_twoRecords : ∃ (s : Service) (hits : List Hit),
    Service.start { Config.standard with indexShards := 2, defaultAnalyzer := "keyword" } true =
      .ok s ∧
    hits.length = 2 ∧
    ((search "t" "a" 1 1).perform (s.after twoRecords)).1 = .ok ((hits.drop 1).take 1) := by
  have hcount : (Service.start { Config.standard with
      indexShards := 2, defaultAnalyzer := "keyword" } true).toOption.any fun s =>
        ((searchCount "t" "a").perform (s.after twoRecords)).1.toOption = some 2 := by
    decide +kernel
  cases hs : Service.start { Config.standard with
      indexShards := 2, defaultAnalyzer := "keyword" } true with
  | error e => rw [hs] at hcount; cases hcount
  | ok s =>
    rw [hs] at hcount
    obtain ⟨hits, hlen, -, -, -, hwindow, -⟩ := search_pages hs twoRecords (by decide)
      (eq_ok_of_toOption (of_decide_eq_true hcount))
    exact ⟨s, hits, rfl, hlen, hwindow 1 1⟩

end Service

end Corpus
