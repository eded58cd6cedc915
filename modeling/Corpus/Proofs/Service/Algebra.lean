import Corpus.Proofs.Query.Enclosed
import Corpus.Proofs.Search.Algebra
import Corpus.Proofs.Service.Paging

/-! Queries in parentheses compose as sets do: what a search for the whole finds is the intersection,
the union or the difference of what searches for the parts find. -/

namespace Corpus.Service

open Text

variable {s : Service} {table query text text' : String} {t : Table} {p p' : Plan}

/-- Whether every window of a search is answered, and these are the ids in all of them. -/
structure Finds (s : Service) (table query : String) (ids : Set String) : Prop where
  answered : ∀ start count, ∃ hits, ((search table query start count).perform s).1 = .ok hits
  mem_iff : ∀ id, id ∈ ids ↔ ∃ start count hits,
    ((search table query start count).perform s).1 = .ok hits ∧ ∃ h ∈ hits, h.id = id

theorem finds_found (hs : s.Sound) (hc : s.Coherent) (ht : s.catalog.get? table = some t)
    (hn : t.shards.docCount < UInt64.size) (hp : Plan.ofSearch t.schema s.analyzers query = .ok p)
    (hf : t.shards.any (p.fails scorer t.shards) = false) :
    s.Finds table query (t.shards.found scorer p) := by
  have hshards := hs.shards ht
  have hlen : (p.hitsAmong scorer t.shards.statistics t.shards.documents).length ≤
      t.shards.docCount := Shards.length_hitsAmong_le p
  have hsearch (start count : Nat) : ((search table query start count).perform s).1 =
      .ok (((Ranking.sort (p.hitsAmong scorer t.shards.statistics t.shards.documents)).drop start).take
        count) := by
    rw [fst_search hs hc, ht]
    exact hshards.search_eq hp hf (hlen.trans_lt hn) start count
  have hperm := Ranking.sort_perm (p.hitsAmong scorer t.shards.statistics t.shards.documents)
  refine ⟨fun start count => ⟨_, hsearch start count⟩, fun id => ?_⟩
  rw [Shards.mem_found_iff_hit]
  constructor
  · intro ⟨h, hh, hid⟩
    refine ⟨0, _, _, hsearch 0 t.shards.docCount, h, ?_, hid⟩
    rw [List.drop_zero, List.take_of_length_le (hperm.length_eq.trans_le hlen)]
    exact hperm.mem_iff.2 hh
  · intro ⟨start, count, hits, hw, h, hh, hid⟩
    cases (hsearch start count).symm.trans hw
    exact ⟨h, hperm.mem_iff.1 (List.mem_of_mem_drop (List.mem_of_mem_take hh)), hid⟩

theorem finds_bool (hs : s.Sound) (hc : s.Coherent) (ht : s.catalog.get? table = some t)
    (hn : t.shards.docCount < UInt64.size) {must should mustNot : List Query}
    {must' should' mustNot' : List Plan}
    (hq : Query.parse allField query = .ok (.bool must should mustNot none))
    (hmust : List.Forall₂ (Plan.Of t.schema s.analyzers) must must')
    (hshould : List.Forall₂ (Plan.Of t.schema s.analyzers) should should')
    (hnot : List.Forall₂ (Plan.Of t.schema s.analyzers) mustNot mustNot')
    (ho : (Plan.bool must' should' mustNot' 1).hasOversized = false) :
    s.Finds table query (t.shards.found scorer (.bool must' should' mustNot' 1)) := by
  have hshards := hs.shards ht
  obtain ⟨p, hp, hf, hfound⟩ :=
    Shards.exists_found_bool hshards.faithful hq hmust hshould hnot ho
  exact hfound ▸ finds_found hs hc ht hn hp hf

/-- AND finds the intersection, OR the union, and NOT the other ids of the index. -/
theorem finds_composed {config : Config} {windows : Bool}
    (h : Service.start config windows = .ok s) (moves : List Move)
    (ht : (s.after moves).catalog.get? table = some t) (hn : t.shards.docCount < UInt64.size)
    (hw : trim text.toList ≠ []) (hw' : trim text'.toList ≠ [])
    (hp : Plan.ofSearch t.schema (s.after moves).analyzers text = .ok p)
    (hp' : Plan.ofSearch t.schema (s.after moves).analyzers text' = .ok p')
    (ho : p.hasOversized = false) (ho' : p'.hasOversized = false) :
    ∃ ids ids' : Set String,
      (s.after moves).Finds table text ids ∧ (s.after moves).Finds table text' ids' ∧
      (s.after moves).Finds table ("(" ++ text ++ ") AND (" ++ text' ++ ")") (ids ∩ ids') ∧
      (s.after moves).Finds table ("(" ++ text ++ ") OR (" ++ text' ++ ")") (ids ∪ ids') ∧
      (s.after moves).Finds table ("(" ++ text ++ ") (" ++ text' ++ ")") (ids ∪ ids') ∧
      (s.after moves).Finds table ("NOT (" ++ text ++ ")") (t.shards.live \ ids) ∧
      (s.after moves).Finds table ("(" ++ text ++ ") AND NOT (" ++ text' ++ ")") (ids \ ids') := by
  have hsteps := steps_after (.start h) moves
  have hs := (Sound.steps (.start h) hsteps).1
  have hc := (Coherent.start h).steps (.start h) hsteps
  generalize s.after moves = s at hs hc ht hp hp'
  have hshards := hs.shards ht
  obtain ⟨q, hq, hof⟩ := Plan.ofSearch_eq_ok.1 hp
  obtain ⟨q', hq', hof'⟩ := Plan.ofSearch_eq_ok.1 hp'
  refine ⟨t.shards.found scorer p, t.shards.found scorer p',
    finds_found hs hc ht hn hp (Shards.any_fails_of_hasOversized (fun _ => .refl p) ho),
    finds_found hs hc ht hn hp' (Shards.any_fails_of_hasOversized (fun _ => .refl p') ho'),
    ?_, ?_, ?_, ?_, ?_⟩
  · rw [← hshards.found_and p p' 1]
    exact finds_bool hs hc ht hn (Query.parse_and hw hw' hq hq') (.cons hof (.cons hof' .nil)) .nil .nil
      (by simp [Plan.hasOversized, Plan.anyOversized, ho, ho'])
  · rw [← hshards.found_or p p' 1]
    exact finds_bool hs hc ht hn (Query.parse_or hw hw' hq hq') .nil (.cons hof (.cons hof' .nil)) .nil
      (by simp [Plan.hasOversized, Plan.anyOversized, ho, ho'])
  · rw [← hshards.found_or p p' 1]
    exact finds_bool hs hc ht hn (Query.parse_beside hw hw' hq hq') .nil (.cons hof (.cons hof' .nil))
      .nil (by simp [Plan.hasOversized, Plan.anyOversized, ho, ho'])
  · rw [← hshards.found_not p 1]
    exact finds_bool hs hc ht hn (Query.parse_not hw hq) .nil .nil (.cons hof .nil)
      (by simp [Plan.hasOversized, Plan.anyOversized, ho])
  · rw [← hshards.found_andNot p p' 1]
    exact finds_bool hs hc ht hn (Query.parse_andNot hw hw' hq hq') (.cons hof .nil) .nil
      (.cons hof' .nil) (by simp [Plan.hasOversized, Plan.anyOversized, ho, ho'])

def twoFields : List Move :=
  [.ask (.createTable "t"),
    .ask (.put [⟨"1", "t", 0, .ofList [("x", .string "a")]⟩,
      ⟨"2", "t", 0, .ofList [("x", .string "a"), ("y", .string "b")]⟩,
      ⟨"3", "t", 0, .ofList [("x", .string "c")]⟩]),
    .work 3 0, .work 3 1]

theorem finds_composed_twoFields : ∃ (s : Service) (ids ids' : Set String),
    Service.start { Config.standard with indexShards := 2, defaultAnalyzer := "keyword" } true =
      .ok s ∧
    (s.after twoFields).Finds "t" "x:a" ids ∧ (s.after twoFields).Finds "t" "y:b OR x:c" ids' ∧
    (s.after twoFields).Finds "t" "(x:a) AND NOT (y:b OR x:c)" (ids \ ids') ∧ "1" ∈ ids \ ids' := by
  have hrun : (Service.start { Config.standard with
      indexShards := 2, defaultAnalyzer := "keyword" } true).toOption.any fun s =>
        ((s.after twoFields).catalog.get? "t").any (fun t =>
          t.shards.docCount = 3 &&
          (Plan.ofSearch t.schema (s.after twoFields).analyzers "x:a").toOption.any (!·.hasOversized) &&
          (Plan.ofSearch t.schema (s.after twoFields).analyzers "y:b OR x:c").toOption.any
            (!·.hasOversized)) &&
        ((search "t" "(x:a) AND NOT (y:b OR x:c)" 0 1).perform (s.after twoFields)).1.toOption.any
          fun hits => hits.any (·.id = "1") := by
    decide +kernel
  simp only [Option.any_eq_true, Bool.and_eq_true, decide_eq_true_eq, Bool.not_eq_true',
    List.any_eq_true] at hrun
  obtain ⟨s, hs, ⟨t, ht, ⟨hn, p, hp, ho⟩, p', hp', ho'⟩, hits, hhits, hit⟩ := hrun
  have h := eq_ok_of_toOption hs
  obtain ⟨ids, ids', hids, hids', -, -, -, -, hdiff⟩ := finds_composed h twoFields ht
    (hn ▸ by decide) (by decide) (by decide)
    (eq_ok_of_toOption hp) (eq_ok_of_toOption hp') ho ho'
  exact ⟨s, ids, ids', h, hids, hids', hdiff,
    (hdiff.mem_iff "1").2 ⟨0, 1, hits, eq_ok_of_toOption hhits, hit⟩⟩

end Corpus.Service
