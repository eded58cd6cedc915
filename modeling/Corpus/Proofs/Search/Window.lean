import Mathlib.Data.List.Basic
import Corpus.Proofs.Index.Shards
import Corpus.Proofs.Search.Ranking
import Corpus.Proofs.Search.Scan

/-! Windows and counts of hits over all segments of a table's index, as a scan of all documents. -/

namespace Corpus

open Number

namespace Plan

variable (score : Scorer)

def hitsAmong (st : Statistics) (p : Plan) (docs : List Document) : List Hit :=
  docs.filterMap fun d => (p.score? score st d.fields).map (Hit.mk d.id)

def fails (shards : Shards) (p : Plan) (s : Segment) : Bool :=
  p.hasOversized && p.meetsOversized score shards s

theorem run_eq (shards : Shards) (p : Plan) (s : Segment) :
    p.run score shards s =
      if p.fails score shards s then .error .oversizedGlob else .ok (p.evaluate score shards s) :=
  rfl

theorem hits_scan (st : Statistics) (p : Plan) (s : Segment) :
    s.hits (p.scan score st s) = p.hitsAmong score st s.docs.values := by
  simp only [Segment.hits, scan, Dict.filterMapValues, hitsAmong, Dict.values, List.filterMap_filterMap,
    List.filterMap_map]
  refine List.filterMap_congr fun a ha => ?_
  have hid : s.docs.get? a.1 = some a.2 := Dict.get?_eq_some_iff.2 ha
  cases hs : p.score? score st a.2.fields <;> simp [hs, Segment.idOf?, hid]

theorem size_scan (st : Statistics) (p : Plan) (s : Segment) :
    (p.scan score st s).size = (p.hitsAmong score st s.docs.values).length := by
  rw [Dict.size_eq_length_values, scan, Dict.values_filterMapValues, hitsAmong,
    List.length_filterMap_eq_countP, List.length_filterMap_eq_countP]
  simp only [Option.isSome_map]

theorem hitsAmong_documents (st : Statistics) (p : Plan) (shards : Shards) :
    p.hitsAmong score st shards.documents =
      (shards.map fun s => p.hitsAmong score st s.docs.values).flatten := by
  rw [hitsAmong, Shards.documents, List.filterMap_flatMap, List.flatMap_def]
  rfl

variable {score} {shards : Shards}

theorem top_eq (h : ∀ s ∈ shards, s.Faithful) (p : Plan) (k : Nat) {s : Segment} (hs : s ∈ shards) :
    p.top score shards k s =
      if p.fails score shards s then .error .oversizedGlob
      else .ok (Ranking.best k (p.hitsAmong score shards.statistics s.docs.values)) := by
  rw [top, run_eq, evaluate_eq_scan (h s hs)]
  cases p.fails score shards s with
  | true => rfl
  | false => exact congrArg Except.ok (congrArg _ (hits_scan score shards.statistics p s))

theorem window_eq (h : ∀ s ∈ shards, s.Faithful) (p : Plan) (start count : Nat) :
    p.window score shards start count =
      if shards.any (p.fails score shards) then .error .oversizedGlob
      else .ok (((Ranking.sort (p.hitsAmong score shards.statistics shards.documents)).take
        (min (start + count) (UInt64.size - 1))).drop start) := by
  rw [window, mapM_eq_ite fun s hs => top_eq h p _ hs]
  cases shards.any (p.fails score shards) with
  | true => rfl
  | false =>
    have hb := Ranking.best_flatten (min (start + count) (UInt64.size - 1))
      (shards.map fun s => p.hitsAmong score shards.statistics s.docs.values)
    rw [List.map_map, ← hitsAmong_documents] at hb
    refine congrArg (fun hits => Except.ok (List.drop start hits)) ?_
    rw [← Ranking.best_eq_take_sort, ← hb]
    rfl

theorem count_eq (h : ∀ s ∈ shards, s.Faithful) (p : Plan) :
    p.count score shards =
      if shards.any (p.fails score shards) then .error .oversizedGlob
      else .ok (p.hitsAmong score shards.statistics shards.documents).length := by
  have hrun : ∀ s ∈ shards, p.run score shards s =
      if p.fails score shards s then .error .oversizedGlob
      else .ok (p.scan score shards.statistics s) := fun s hs => by
    rw [run_eq, evaluate_eq_scan (h s hs)]
  rw [count, mapM_eq_ite hrun]
  cases shards.any (p.fails score shards) with
  | true => rfl
  | false =>
    refine congrArg Except.ok ?_
    rw [hitsAmong_documents, List.length_flatten, List.map_map, List.map_map, total_eq_sum]
    congr 2
    funext s
    exact size_scan ..

theorem any_fails_of_window (h : ∀ s ∈ shards, s.Faithful) {p : Plan} {start count : Nat}
    {hits : List Hit} (hw : p.window score shards start count = .ok hits) :
    shards.any (p.fails score shards) = false := by
  rw [window_eq h] at hw
  split at hw
  next => cases hw
  next hf => exact Bool.eq_false_iff.2 hf

theorem any_fails_of_count (h : ∀ s ∈ shards, s.Faithful) {p : Plan} {n : Nat}
    (hc : p.count score shards = .ok n) : shards.any (p.fails score shards) = false := by
  rw [count_eq h] at hc
  split at hc
  next => cases hc
  next hf => exact Bool.eq_false_iff.2 hf

end Plan

end Corpus
