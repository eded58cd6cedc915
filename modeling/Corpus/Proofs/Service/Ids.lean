import Corpus.Proofs.Search.Ids
import Corpus.Proofs.Service.Drilldown
import Corpus.Proofs.Service.Naming
import Corpus.Proofs.Service.Origin

/-! Searches for an identity, in tables whose index was never cleared.  They find the record of that
identity, and those that go by it though it is not theirs. -/

namespace Corpus.Service

open Corpus.Action Text

variable {s : Service} {table : String} {t : Table} {g : List Happening}

theorem keyword_after {config : Config} {windows : Bool} (h : Service.start config windows = .ok s)
    (moves : List Move) : (s.after moves).analyzers.keyword = .keyword := by
  rw [analyzers_steps (steps_after (.start h) moves)]
  obtain ⟨-, -, h⟩ := bind_eq_ok.1 h
  cases h
  rfl

/-- Whether the store has a record of an identity, of which the last analysis made a document. -/
def HasIndexed (s : Service) (g : List Happening) (t : Table) (id : String) : Prop :=
  ∃ r schema d, s.store.record? t.name id = some r ∧ lastAnalyzed? t.epoch id g = some (r, schema) ∧
    Document.ofRecord schema s.analyzers r = .ok d

theorem Shows.exists_hits (h : s.Shows g t) (hk : s.Kept g) (hc : s.Coherent)
    (ht : s.catalog.get? table = some t) (hkeyword : s.analyzers.keyword = .keyword) {text : String}
    (hquote : '"' ∉ text.toList) :
    ∃ hits : List Hit, (hits.map (·.id)).Nodup ∧
      ((searchCount table (idQuery text)).perform s).1 = .ok hits.length ∧
      (hits.length < UInt64.size → s.Sees table (idQuery text) hits) ∧
      ∀ id, id ∈ hits.map (·.id) ↔ ∃ r schema d, s.store.record? t.name id = some r ∧
        lastAnalyzed? t.epoch id g = some (r, schema) ∧
        Document.ofRecord schema s.analyzers r = .ok d ∧ r.GoesBy schema s.analyzers text := by
  have hshards := hk.sound.shards ht
  have hplan := Plan.ofSearch_idQuery t.schema s.analyzers hquote
  have hfails : t.shards.any ((Plan.named text).fails scorer t.shards) = false :=
    Shards.any_fails_of_hasOversized (fun _ => .refl _) rfl
  have hperm := Ranking.sort_perm
    ((Plan.named text).hitsAmong scorer t.shards.statistics t.shards.documents)
  refine ⟨_, (hperm.map _).nodup_iff.2
    (hshards.nodup_ids.sublist (Plan.map_id_hitsAmong_sublist _ _ _)), ?_, fun hn start count => ?_,
    fun id => ?_⟩
  · rw [fst_searchCount hk.sound, ht]
    dsimp only
    rw [Shards.searchCount_of_ok hplan, Plan.count_eq hshards.faithful,
      if_neg (Bool.eq_false_iff.1 hfails), hperm.length_eq]
  · rw [fst_search hk.sound hc, ht]
    exact hshards.search_eq hplan hfails (hperm.length_eq ▸ hn) start count
  · rw [(hperm.map _).mem_iff, List.mem_map, ← Shards.mem_found_iff_hit, hshards.mem_found]
    simp only [h.document?_eq_some, Plan.isSome_named]
    constructor
    · intro ⟨d, ⟨r, schema, hr, ha, hd⟩, hm⟩
      exact ⟨r, schema, d, hr, ha, hd, (Document.mem_words_iff hd hkeyword).1 hm⟩
    · intro ⟨r, schema, d, hr, ha, hd, hm⟩
      exact ⟨d, ⟨r, schema, hr, ha, hd⟩, (Document.mem_words_iff hd hkeyword).2 hm⟩

theorem Shows.goesBy_iff (h : s.Shows g t) (hst : s.store.Sound) (hidentified : ∀ x ∈ g, x.Identified)
    (hbare : ∀ r ∈ s.store.records t.name, Bare r.id.toList ∧ r.values.get? idField = none)
    {id text : String} {r : Record} (hr : s.store.record? t.name id = some r) {schema : Schema} :
    r.GoesBy schema s.analyzers text ↔ id = text := by
  have hid : r.id ≠ "" := hidentified _ (h.put id r hr)
  obtain rfl := hst.id_eq hr
  obtain ⟨hb, hv⟩ := hbare r (hst.mem_records.2 hr)
  exact Record.goesBy_iff hb hid hv

/-- Once nothing waits a search for an identity finds the records that go by it. -/
theorem sees_id {config : Config} {windows : Bool} (h : Service.start config windows = .ok s)
    (moves : List Move) (hq : ∀ events ∈ (s.after moves).indexer.queues.waiting, events = [])
    (ht : (s.after moves).catalog.get? table = some t) (hclear : .clear t.epoch ∉ s.history moves)
    {text : String} (hquote : '"' ∉ text.toList) :
    ∃ hits : List Hit, (hits.map (·.id)).Nodup ∧
      ((searchCount table (idQuery text)).perform (s.after moves)).1 = .ok hits.length ∧
      (hits.length < UInt64.size → (s.after moves).Sees table (idQuery text) hits) ∧
      (∀ id, id ∈ hits.map (·.id) ↔ ∃ r schema d,
        (s.after moves).store.record? t.name id = some r ∧
        lastAnalyzed? t.epoch id (s.history moves) = some (r, schema) ∧
        Document.ofRecord schema (s.after moves).analyzers r = .ok d ∧
        r.GoesBy schema (s.after moves).analyzers text) ∧
      ((∀ r ∈ (s.after moves).store.records t.name,
          Bare r.id.toList ∧ r.values.get? idField = none) →
        (s.after moves).Sees table (idQuery text) hits ∧
        ((s.after moves).HasIndexed (s.history moves) t text ∧ hits.map (·.id) = [text] ∨
          ¬(s.after moves).HasIndexed (s.history moves) t text ∧ hits = [])) := by
  have hshows := shows_after h moves hq ht hclear
  obtain ⟨hits, hnodup, hcount, hsees, hmem⟩ := hshows.exists_hits (kept_after h moves)
    (sound_after h moves).2 ht (keyword_after h moves) hquote
  refine ⟨hits, hnodup, hcount, hsees, hmem, fun hbare => ?_⟩
  have hgoes {id : String} {r : Record} := @Shows.goesBy_iff _ _ _ hshows (kept_after h moves).store
    (identified_history s moves) hbare id text r
  have hone (id : String) : id ∈ hits.map (·.id) ↔
      (s.after moves).HasIndexed (s.history moves) t text ∧ id = text := by
    rw [hmem]
    constructor
    · intro ⟨r, schema, d, hr, ha, hd, hg⟩
      obtain rfl := (hgoes hr).1 hg
      exact ⟨⟨r, schema, d, hr, ha, hd⟩, rfl⟩
    · rintro ⟨⟨r, schema, d, hr, ha, hd⟩, rfl⟩
      exact ⟨r, schema, d, hr, ha, hd, (hgoes hr).2 rfl⟩
  by_cases hindexed : (s.after moves).HasIndexed (s.history moves) t text
  · have hids : hits.map (·.id) = [text] := List.perm_singleton.1
      ((List.perm_ext_iff_of_nodup hnodup (List.nodup_singleton text)).2 fun id => by simp [hone, hindexed])
    have hlength := congrArg List.length hids
    rw [List.length_map, List.length_singleton] at hlength
    exact ⟨hsees (hlength ▸ by decide), .inl ⟨hindexed, hids⟩⟩
  · have hnil : hits = [] := List.map_eq_nil_iff.1
      (List.eq_nil_iff_forall_not_mem.2 fun id hid => hindexed ((hone id).1 hid).1)
    exact ⟨hsees (hnil ▸ by decide), .inr ⟨hindexed, hnil⟩⟩

def spacedId : List Move :=
  [.ask (.createTable "t"),
    .ask (.put [⟨"a b", "t", 0, .empty⟩, ⟨"c", "t", 0, .ofList [("x", .string "a b")]⟩]),
    .ask (.deleteIds "t" ["c"]),
    .work 9 0]

theorem sees_id_spacedId : ∃ (s : Service) (hits : List Hit),
    Service.start { Config.standard with indexShards := 1, defaultAnalyzer := "keyword" } true =
      .ok s ∧
    (s.after spacedId).Sees "t" "_id:\"a b\"" hits ∧ hits.map (·.id) = ["a b"] := by
  have hrun : (Service.start { Config.standard with
      indexShards := 1, defaultAnalyzer := "keyword" } true).toOption.any fun s =>
        (s.after spacedId).indexer.queues.waiting.all (·.isEmpty) &&
        ((s.after spacedId).catalog.get? "t").any fun t =>
          !(s.history spacedId).contains (.clear t.epoch) &&
          (s.after spacedId).store.records t.name = [⟨"a b", "t", 0, .empty⟩] &&
          ((searchCount "t" "_id:\"a b\"").perform (s.after spacedId)).1.toOption = some 1 := by
    decide +kernel
  simp only [Option.any_eq_true, Bool.and_eq_true, Bool.not_eq_true', List.all_eq_true,
    List.isEmpty_iff, List.contains_eq_mem, decide_eq_false_iff_not, decide_eq_true_eq] at hrun
  obtain ⟨s, hs, hq, t, ht, ⟨hclear, hrecords⟩, hone⟩ := hrun
  have h := eq_ok_of_toOption hs
  have hbare : ∀ r ∈ (s.after spacedId).store.records t.name,
      Bare r.id.toList ∧ r.values.get? idField = none := by
    rw [hrecords]
    intro r hr
    rw [List.mem_singleton.1 hr]
    refine ⟨⟨fun c hc => ?_, fun c hc => ?_⟩, rfl⟩
    · obtain rfl : 'a' = c := Option.some.inj hc
      decide
    · obtain rfl : 'b' = c := Option.some.inj hc
      decide
  obtain ⟨hits, -, hcount, -, -, hsees⟩ := sees_id h spacedId hq ht hclear
    (show '"' ∉ "a b".toList by decide)
  obtain ⟨hsees, hids | hnone⟩ := hsees hbare
  · exact ⟨s, hits, h, hsees, hids.2⟩
  · rw [show "_id:\"a b\"" = idQuery "a b" by decide, hcount, hnone.2] at hone
    cases hone

def blankId : List Move :=
  [.ask (.createTable "t"), .ask (.put [⟨" a ", "t", 0, .empty⟩]), .work 1 0]

def idColumn : List Move :=
  [.ask (.createTable "t"), .ask (.put [⟨"1", "t", 0, .ofList [("_id", .string "2")]⟩]), .work 1 0]

/-- The one is not found by its identity, and the other is found by what is not its identity. -/
theorem misses_blankId_finds_idColumn : ∃ (s : Service) (t u : Table),
    Service.start { Config.standard with indexShards := 1, defaultAnalyzer := "keyword" } true =
      .ok s ∧
    (s.after blankId).catalog.get? "t" = some t ∧
    (∀ events ∈ (s.after blankId).indexer.queues.waiting, events = []) ∧
    .clear t.epoch ∉ s.history blankId ∧
    (s.after blankId).HasIndexed (s.history blankId) t " a " ∧
    ((search "t" "_id:\" a \"" 0 10).perform (s.after blankId)).1.toOption = some [] ∧
    (s.after idColumn).catalog.get? "t" = some u ∧
    (∀ events ∈ (s.after idColumn).indexer.queues.waiting, events = []) ∧
    .clear u.epoch ∉ s.history idColumn ∧
    ¬(s.after idColumn).HasIndexed (s.history idColumn) u "2" ∧
    (((search "t" "_id:\"2\"" 0 10).perform (s.after idColumn)).1.toOption.map (·.map (·.id))) =
      some ["1"] := by
  have hrun : (Service.start { Config.standard with
      indexShards := 1, defaultAnalyzer := "keyword" } true).toOption.any fun s =>
        ((s.after blankId).catalog.get? "t").any (fun t =>
          (s.after blankId).indexer.queues.waiting.all (·.isEmpty) &&
          !(s.history blankId).contains (.clear t.epoch) &&
          (s.after blankId).store.record? t.name " a " = some ⟨" a ", "t", 0, .empty⟩ &&
          (lastAnalyzed? t.epoch " a " (s.history blankId)).any (fun (r, schema) =>
            r = ⟨" a ", "t", 0, .empty⟩ &&
            (Document.ofRecord schema (s.after blankId).analyzers r).toOption.isSome) &&
          ((search "t" "_id:\" a \"" 0 10).perform (s.after blankId)).1.toOption = some []) &&
        ((s.after idColumn).catalog.get? "t").any fun u =>
          (s.after idColumn).indexer.queues.waiting.all (·.isEmpty) &&
          !(s.history idColumn).contains (.clear u.epoch) &&
          ((s.after idColumn).store.record? u.name "2").isNone &&
          (((search "t" "_id:\"2\"" 0 10).perform (s.after idColumn)).1.toOption.map
            (·.map (·.id))) = some ["1"] := by
    decide +kernel
  simp only [Option.any_eq_true, Prod.exists, Bool.and_eq_true, Bool.not_eq_true', List.all_eq_true,
    List.isEmpty_iff, List.contains_eq_mem, decide_eq_false_iff_not, decide_eq_true_eq,
    Option.isNone_iff_eq_none, Option.isSome_iff_exists] at hrun
  obtain ⟨s, hs, ⟨t, ht, ⟨⟨⟨hq, hc⟩, hr⟩, _, schema, ha, rfl, d, hd⟩, hmiss⟩, u, hu,
    ⟨⟨hq', hc'⟩, hnone⟩, hfind⟩ := hrun
  refine ⟨s, t, u, eq_ok_of_toOption hs, ht, hq, hc, ⟨_, schema, d, hr, ha, eq_ok_of_toOption hd⟩, hmiss,
    hu, hq', hc', fun ⟨r, _, _, hr, _⟩ => ?_, hfind⟩
  rw [hnone] at hr
  cases hr

end Corpus.Service
