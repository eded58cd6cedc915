import Corpus.Proofs.Search.Times
import Corpus.Proofs.Service.Origin
import Corpus.Proofs.Store.Group

/-! Searches for a range of times against counts of the store.  Both tell how many records are in the range,
but a search compares the times as they are rounded. -/

namespace Corpus.Service

open Corpus.Action Number

variable {s : Service} {table : String} {t : Table}

theorem fst_count (hs : s.Sound) (table : String) (lower upper : Int) :
    ((count table lower upper).perform s).1 =
      match s.catalog.get? table with
      | none => .error (.noTable (tableName table))
      | some t => s.store.count t.name lower upper := by
  cases ht : s.catalog.get? table <;> simp [count, hs.alive, Catalog.require, ht]

def inRounded (lower upper time : Int) : Bool :=
  (Binary.ofInt lower : Binary64).le (.ofInt time) && (Binary.ofInt time : Binary64).lt (.ofInt upper)

theorem inRounded_eq {lower upper time : Int} (hl : Binary.Sharp lower) (hu : Binary.Sharp upper)
    (ht : IsTime time) : inRounded lower upper time = (lower ≤ time && time < upper) := by
  rw [Bool.eq_iff_iff, inRounded, Bool.and_eq_true, Bool.and_eq_true, hl.le_ofInt_iff ht.1,
    hu.ofInt_lt_iff ht.1, decide_eq_true_eq, decide_eq_true_eq]

theorem inTimes_eq {upper : Int} (h : upper ≠ timeMax) (lower time : Int) :
    inTimes lower upper time = (lower ≤ time && time < upper) := by
  rw [inTimes, decide_eq_false h, Bool.false_or]

theorem Shows.searchCount_times {g : List Happening} (h : s.Shows g t) (hk : s.Kept g)
    (ht : s.catalog.get? table = some t)
    (hindexed : ∀ r schema, .analysis t.epoch r schema ∈ g →
      ∃ d, Document.ofRecord schema s.analyzers r = .ok d)
    (hcolumn : ∀ r ∈ s.store.records t.name, r.values.get? timestampField = none) {a b : Int}
    (ha : a.natAbs < 10 ^ 19) (hb : b.natAbs < 10 ^ 19) :
    ((searchCount table (timesQuery a b)).perform s).1 =
      .ok ((s.store.records t.name).countP (inRounded a b ·.timestamp)) := by
  have hshards := hk.sound.shards ht
  have hperm := h.map_id_hitsAmong hk.store hshards (p := Plan.times a b)
    (P := fun r => inRounded a b r.timestamp) fun r hr => by
      have hmatches {schema : Schema} {d : Document}
          (hd : Document.ofRecord schema s.analyzers r = .ok d) :
          ((Plan.times a b).score? scorer t.shards.statistics d.fields).isSome ↔
            inRounded a b r.timestamp := by
        rw [inRounded, Bool.and_eq_true]
        exact Plan.isSome_times ha (Document.ofRecord_held_timestamp hd (hcolumn r hr))
      obtain ⟨schema, hlast⟩ := h.analyzed r.id r (hk.store.mem_records.1 hr)
      obtain ⟨d, hd⟩ := hindexed r schema (mem_of_lastAnalyzed? hlast)
      constructor
      · intro hin
        exact ⟨schema, d, hlast, hd, (hmatches hd).2 hin⟩
      · intro ⟨_, _, _, hd, hm⟩
        exact (hmatches hd).1 hm
  have hlength := hperm.length_eq
  rw [List.length_map, List.length_map] at hlength
  rw [fst_searchCount hk.sound, ht]
  dsimp only
  rw [Shards.searchCount_of_ok (Plan.ofSearch_times t.schema s.analyzers ha hb),
    Plan.count_eq hshards.faithful,
    if_neg (Bool.eq_false_iff.1 (Shards.any_fails_of_hasOversized (fun _ => .refl _) rfl)), hlength,
    List.countP_eq_length_filter]
  simp only [Bool.decide_eq_true]

theorem Kept.count_eq {g : List Happening} (h : s.Kept g) (ht : s.catalog.get? table = some t)
    (lower upper : Int) :
    ((count table lower upper).perform s).1 =
      .ok ((s.store.records t.name).countP (inTimes lower upper ·.timestamp)) := by
  have hhas : s.catalog.Has t := h.sound.indexer.catalog.has ht
  have hcontains : s.store.tables.contains t.name := by
    rw [h.names, hhas.1]
    rfl
  rw [fst_count h.sound, ht]
  exact h.store.count_eq hcontains lower upper

/-- A search for times goes by the rounded ones, and the store by the times themselves. -/
theorem searchCount_eq_count {config : Config} {windows : Bool}
    (h : Service.start config windows = .ok s) (moves : List Move)
    (hq : ∀ events ∈ (s.after moves).indexer.queues.waiting, events = [])
    (ht : (s.after moves).catalog.get? table = some t) (hclear : .clear t.epoch ∉ s.history moves)
    (hindexed : ∀ r schema, .analysis t.epoch r schema ∈ s.history moves →
      ∃ d, Document.ofRecord schema (s.after moves).analyzers r = .ok d)
    (hrecords : ∀ r ∈ (s.after moves).store.records t.name,
      IsTime r.timestamp ∧ r.values.get? timestampField = none)
    {a b : Int} (ha : IsTime a) (hb : IsTime b) (hmax : b ≠ timeMax) :
    ∃ found inside : Nat,
      ((searchCount table (timesQuery a b)).perform (s.after moves)).1 = .ok found ∧
      ((count table a b).perform (s.after moves)).1 = .ok inside ∧
      found = ((s.after moves).store.records t.name).countP (inRounded a b ·.timestamp) ∧
      inside = ((s.after moves).store.records t.name).countP
        (fun r => a ≤ r.timestamp && r.timestamp < b) ∧
      (Binary.Sharp a → Binary.Sharp b → found = inside) ∧
      (-9007199254740992 < a → a ≤ 9007199254740992 → -9007199254740992 < b →
        b ≤ 9007199254740992 → found = inside) := by
  have hkept := kept_after h moves
  have hshows := shows_after h moves hq ht hclear
  generalize s.after moves = s at *
  generalize s.history moves = g at *
  have hsame (hl : Binary.Sharp a) (hu : Binary.Sharp b) :
      (s.store.records t.name).countP (inRounded a b ·.timestamp) =
        (s.store.records t.name).countP (fun r => a ≤ r.timestamp && r.timestamp < b) :=
    List.countP_congr fun r hr => by rw [inRounded_eq hl hu (hrecords r hr).1]
  have hinside := hkept.count_eq ht a b
  simp only [inTimes_eq hmax] at hinside
  exact ⟨_, _, hshows.searchCount_times hkept ht hindexed (fun r hr => (hrecords r hr).2)
      (by simp only [IsTime, timeMin, timeMax] at ha; omega)
      (by simp only [IsTime, timeMin, timeMax] at hb; omega),
    hinside, rfl, rfl, hsame,
    fun hl hl' hu hu' => hsame (Binary.sharp_of_small hl hl') (Binary.sharp_of_small hu hu')⟩

def allIndexed (analyzers : Analyzers) (epoch : Nat) (g : List Happening) : Bool :=
  g.all fun
    | .analysis epoch' r schema =>
      epoch' != epoch || (Document.ofRecord schema analyzers r).toOption.isSome
    | .put .. | .clear _ => true

theorem exists_of_allIndexed {analyzers : Analyzers} {epoch : Nat} {g : List Happening}
    (h : allIndexed analyzers epoch g) {r : Record} {schema : Schema}
    (hm : .analysis epoch r schema ∈ g) : ∃ d, Document.ofRecord schema analyzers r = .ok d := by
  have hone := List.all_eq_true.1 h _ hm
  rw [Bool.or_eq_true, bne_self_eq_false] at hone
  obtain ⟨d, hd⟩ := Option.isSome_iff_exists.1 (hone.resolve_left Bool.false_ne_true)
  exact ⟨d, eq_ok_of_toOption hd⟩

def threeTimes : List Move :=
  [.ask (.createTable "t"),
    .ask (.put [⟨"1", "t", -3, .empty⟩, ⟨"2", "t", 5, .empty⟩, ⟨"3", "t", 7, .empty⟩]),
    .ask (.deleteIds "t" ["3"]),
    .ask (.put [⟨"1", "t", 4, .empty⟩]),
    .work 9 0]

theorem searchCount_eq_count_threeTimes : ∃ s : Service,
    Service.start { Config.standard with indexShards := 1, defaultAnalyzer := "keyword" } true =
      .ok s ∧
    ((searchCount "t" "_timestamp:[-3 TO 5\x7d").perform (s.after threeTimes)).1 = .ok 1 ∧
    ((count "t" (-3) 5).perform (s.after threeTimes)).1 = .ok 1 := by
  have hrun : (Service.start { Config.standard with
      indexShards := 1, defaultAnalyzer := "keyword" } true).toOption.any fun s =>
        (s.after threeTimes).indexer.queues.waiting.all (·.isEmpty) &&
        ((s.after threeTimes).catalog.get? "t").any fun t =>
          !(s.history threeTimes).contains (.clear t.epoch) &&
          allIndexed (s.after threeTimes).analyzers t.epoch (s.history threeTimes) &&
          ((s.after threeTimes).store.records t.name).all (fun r =>
            IsTime r.timestamp && (r.values.get? timestampField).isNone) &&
          ((s.after threeTimes).store.records t.name).countP
            (fun r => -3 ≤ r.timestamp && r.timestamp < 5) = 1 := by
    decide +kernel
  simp only [Option.any_eq_true, Bool.and_eq_true, Bool.not_eq_true', List.all_eq_true,
    List.isEmpty_iff, List.contains_eq_mem, decide_eq_false_iff_not, decide_eq_true_eq,
    Option.isNone_iff_eq_none] at hrun
  obtain ⟨s, hs, hq, t, ht, ⟨⟨hclear, hindexed⟩, hrecords⟩, hcount⟩ := hrun
  have h := eq_ok_of_toOption hs
  obtain ⟨found, inside, hfound, hinside, -, hin, -, hsame⟩ :=
    searchCount_eq_count h threeTimes hq ht hclear (fun _ _ => exists_of_allIndexed hindexed) hrecords
      (a := -3) (b := 5) (by decide) (by decide) (by decide)
  have hquery : timesQuery (-3) 5 = "_timestamp:[-3 TO 5\x7d" := by decide +kernel
  rw [hcount] at hin
  rw [hquery, hsame (by decide) (by decide) (by decide) (by decide), hin] at hfound
  exact ⟨s, h, hfound, hin ▸ hinside⟩

def lastExact : Record := ⟨"1", "t", 9007199254740992, .empty⟩

def putLastExact : List Move := [.ask (.createTable "t"), .ask (.put [lastExact]), .work 1 0]

/-- The bounds of the range are rounded to one number, and the search finds nothing between. -/
theorem searchCount_ne_count_lastExact : ∃ (s : Service) (t : Table),
    Service.start { Config.standard with indexShards := 1, defaultAnalyzer := "keyword" } true =
      .ok s ∧
    (∀ events ∈ (s.after putLastExact).indexer.queues.waiting, events = []) ∧
    (s.after putLastExact).catalog.get? "t" = some t ∧
    s.history putLastExact = [.put t.epoch lastExact, .analysis t.epoch lastExact t.schema] ∧
    (Document.ofRecord t.schema s.analyzers lastExact).toOption.isSome ∧
    ((searchCount "t" "_timestamp:[9007199254740992 TO 9007199254740993\x7d").perform
      (s.after putLastExact)).1.toOption = some 0 ∧
    ((count "t" 9007199254740992 9007199254740993).perform (s.after putLastExact)).1.toOption =
      some 1 := by
  have hrun : (Service.start { Config.standard with
      indexShards := 1, defaultAnalyzer := "keyword" } true).toOption.any fun s =>
        (s.after putLastExact).indexer.queues.waiting.all (·.isEmpty) &&
        ((s.after putLastExact).catalog.get? "t").any fun t =>
          s.history putLastExact = [.put t.epoch lastExact, .analysis t.epoch lastExact t.schema] &&
          (Document.ofRecord t.schema s.analyzers lastExact).toOption.isSome &&
          ((searchCount "t" "_timestamp:[9007199254740992 TO 9007199254740993\x7d").perform
            (s.after putLastExact)).1.toOption = some 0 &&
          ((count "t" 9007199254740992 9007199254740993).perform (s.after putLastExact)).1.toOption =
            some 1 := by
    decide +kernel
  simp only [Option.any_eq_true, Bool.and_eq_true, List.all_eq_true, List.isEmpty_iff,
    decide_eq_true_eq] at hrun
  obtain ⟨s, hs, hq, t, ht, ⟨⟨hhistory, hindexed⟩, hsearch⟩, hcount⟩ := hrun
  exact ⟨s, t, eq_ok_of_toOption hs, hq, ht, hhistory, hindexed, hsearch, hcount⟩

end Corpus.Service
