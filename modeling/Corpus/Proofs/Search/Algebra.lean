import Corpus.Proofs.Plan.Simplify
import Corpus.Proofs.Search.Matches
import Corpus.Proofs.Search.Sharding
import Mathlib.Data.Set.Basic

/-! What a plan finds in a table's index, as a set of ids.  Required parts meet, optional ones join and
prohibited ones are taken away. -/

namespace Corpus

open Number

namespace Plan

section

variable {score : Scorer} {st : Statistics} {fields : Fields}

theorem isSome_score?_bool (must should mustNot : List Plan) (boost : Binary32) :
    ((Plan.bool must should mustNot boost).score? score st fields).isSome ↔
      (∀ p ∈ must, (p.score? score st fields).isSome) ∧
        (must = [] → should ≠ [] → ∃ p ∈ should, (p.score? score st fields).isSome) ∧
        ∀ p ∈ mustNot, ¬(p.score? score st fields).isSome := by
  rw [score?, blend, Option.isSome_ite, admits_iff, scoreEach?_isEmpty, scoreEach?_isEmpty]
  simp [scoreEach?_eq_map]

end

section

variable {schema : Schema} {analyzers : Analyzers} {query : String}

def Of (schema : Schema) (analyzers : Analyzers) (q : Query) (p : Plan) : Prop :=
  ∃ r, ofQuery schema analyzers q = .ok r ∧ r.simplify = p

theorem ofSearch_eq_ok {p : Plan} : ofSearch schema analyzers query = .ok p ↔
    ∃ q, Query.parse allField query = .ok q ∧ Of schema analyzers q p := by
  rw [ofSearch, bind_eq_ok]
  refine exists_congr fun q => and_congr_right fun _ => ?_
  rw [bind_eq_ok]
  exact exists_congr fun r => and_congr_right fun _ => ⟨Except.ok.inj, congrArg Except.ok⟩

theorem exists_ofQueries {qs : List Query} {ps : List Plan}
    (h : List.Forall₂ (Of schema analyzers) qs ps) :
    ∃ rs, ofQueries schema analyzers qs = .ok rs ∧ simplifyEachBy [.prune, .unwrap] rs = ps := by
  induction h with
  | nil => exact ⟨[], rfl, rfl⟩
  | cons h _ ih =>
    obtain ⟨r, hr, rfl⟩ := h
    obtain ⟨rs, hrs, rfl⟩ := ih
    exact ⟨r :: rs, by rw [ofQueries, hr, hrs]; rfl, rfl⟩

theorem Of.bool {must should mustNot : List Query} {must' should' mustNot' : List Plan}
    (hm : List.Forall₂ (Of schema analyzers) must must')
    (hs : List.Forall₂ (Of schema analyzers) should should')
    (hn : List.Forall₂ (Of schema analyzers) mustNot mustNot') :
    Of schema analyzers (.bool must should mustNot none)
      (runAll [.prune, .unwrap] (.bool must' should' mustNot' 1)) := by
  obtain ⟨ms, hms, rfl⟩ := exists_ofQueries hm
  obtain ⟨ss, hss, rfl⟩ := exists_ofQueries hs
  obtain ⟨ns, hns, rfl⟩ := exists_ofQueries hn
  exact ⟨.bool ms ss ns 1, by rw [ofQuery, hms, hss, hns]; rfl, rfl⟩

end

end Plan

namespace Shards

def live (s : Shards) : Set String := {id | ∃ segment ∈ s, segment.contains id}

def found (score : Scorer) (s : Shards) (p : Plan) : Set String :=
  {id | ∃ d ∈ s.documents, (p.score? score s.statistics d.fields).isSome ∧ d.id = id}

variable {score : Scorer} {table : String} {s : Shards}

theorem Sound.mem_live (h : s.Sound table) {id : String} :
    id ∈ s.live ↔ ∃ d, s.document? table id = some d := by
  simp only [h.document?_eq_some, ← Option.isSome_iff_exists, exists_comm (α := Document),
    exists_and_left]
  exact exists_congr fun segment => and_congr_right fun hs => (h.faithful segment hs).isSome_docOf? id

theorem Sound.mem_found (h : s.Sound table) {p : Plan} {id : String} :
    id ∈ s.found score p ↔ ∃ d, s.document? table id = some d ∧
      (p.score? score s.statistics d.fields).isSome := by
  constructor
  · rintro ⟨d, hd, hm, rfl⟩
    exact ⟨d, h.mem_documents.1 hd, hm⟩
  · intro ⟨d, hd, hm⟩
    obtain ⟨segment, hs, hd⟩ := h.document?_eq_some.1 hd
    obtain ⟨doc, hd, hid⟩ := (h.faithful segment hs).document?_eq_some.1 hd
    exact ⟨d, List.mem_flatMap.2 ⟨segment, hs, Dict.mem_values_iff.2 ⟨doc, hd⟩⟩, hm, hid⟩

theorem mem_found_iff_hit {p : Plan} {id : String} :
    id ∈ s.found score p ↔ ∃ h ∈ p.hitsAmong score s.statistics s.documents, h.id = id := by
  constructor
  · intro ⟨d, hd, hm, hid⟩
    obtain ⟨x, hx⟩ := Option.isSome_iff_exists.1 hm
    exact ⟨⟨d.id, x⟩, List.mem_filterMap.2 ⟨d, hd, by rw [hx]; rfl⟩, hid⟩
  · rintro ⟨_, hh, hid⟩
    obtain ⟨d, hd, hh⟩ := List.mem_filterMap.1 hh
    obtain ⟨x, hx, rfl⟩ := Option.map_eq_some_iff.1 hh
    exact ⟨d, hd, Option.isSome_of_eq_some hx, hid⟩

theorem length_hitsAmong_le (p : Plan) :
    (p.hitsAmong score s.statistics s.documents).length ≤ s.docCount := by
  have hdocs : s.documents.length = s.docCount := by
    rw [documents, docCount, List.length_flatMap, total_eq_sum]
    simp only [Dict.size_eq_length_values]
  exact hdocs ▸ List.length_filterMap_le ..

theorem Sound.mem_found_bool (h : s.Sound table) (must should mustNot : List Plan) (boost : Binary32)
    {id : String} :
    id ∈ s.found score (.bool must should mustNot boost) ↔
      id ∈ s.live ∧ (∀ p ∈ must, id ∈ s.found score p) ∧
        (must = [] → should ≠ [] → ∃ p ∈ should, id ∈ s.found score p) ∧
        ∀ p ∈ mustNot, id ∉ s.found score p := by
  simp only [h.mem_live, h.mem_found, Plan.isSome_score?_bool]
  cases s.document? table id <;> simp

section

variable {p q : Plan}

theorem Sound.mem_live_of_found (h : s.Sound table) {id : String} (hid : id ∈ s.found score p) :
    id ∈ s.live := by
  obtain ⟨d, hd, -⟩ := h.mem_found.1 hid
  exact h.mem_live.2 ⟨d, hd⟩

theorem Sound.found_and (h : s.Sound table) (p q : Plan) (boost : Binary32) :
    s.found score (.bool [p, q] [] [] boost) = s.found score p ∩ s.found score q := by
  ext id
  simpa [h.mem_found_bool] using fun hp _ => h.mem_live_of_found hp

theorem Sound.found_or (h : s.Sound table) (p q : Plan) (boost : Binary32) :
    s.found score (.bool [] [p, q] [] boost) = s.found score p ∪ s.found score q := by
  ext id
  simpa [h.mem_found_bool] using Or.rec h.mem_live_of_found h.mem_live_of_found

theorem Sound.found_not (h : s.Sound table) (p : Plan) (boost : Binary32) :
    s.found score (.bool [] [] [p] boost) = s.live \ s.found score p := by
  ext id
  simp [h.mem_found_bool]

theorem Sound.found_andNot (h : s.Sound table) (p q : Plan) (boost : Binary32) :
    s.found score (.bool [p] [] [q] boost) = s.found score p \ s.found score q := by
  ext id
  simpa [h.mem_found_bool] using fun hp _ => h.mem_live_of_found hp

theorem found_congr (hf : ∀ segment ∈ s, segment.Faithful)
    (h : ∀ segment, Plan.Replaces score s segment q p) : s.found score q = s.found score p := by
  refine Set.ext fun id => exists_congr fun d => and_congr_right fun hd => ?_
  obtain ⟨segment, hs, hd⟩ := List.mem_flatMap.1 hd
  obtain ⟨doc, hd⟩ := Dict.mem_values_iff.1 hd
  have heval := congrArg (·.get? doc) (h segment).evaluate
  simp only [Plan.evaluate_eq_scan (hf segment hs), Plan.get?_scan, hd, Option.bind_some] at heval
  rw [heval]

theorem any_fails_of_hasOversized (h : ∀ segment, Plan.Replaces score s segment q p)
    (hp : p.hasOversized = false) : s.any (q.fails score s) = false := by
  refine List.any_eq_false.2 fun segment _ hq => ?_
  rw [Plan.fails, Bool.and_eq_true] at hq
  have hmeets := Plan.hasOversized_of_meets p ((h segment).meets hq.2)
  exact Bool.false_ne_true (hp.symm.trans hmeets)

end

theorem exists_found_bool (hf : ∀ segment ∈ s, segment.Faithful) {schema : Schema}
    {analyzers : Analyzers} {query : String} {must should mustNot : List Query}
    {must' should' mustNot' : List Plan}
    (hq : Query.parse allField query = .ok (.bool must should mustNot none))
    (hm : List.Forall₂ (Plan.Of schema analyzers) must must')
    (hs : List.Forall₂ (Plan.Of schema analyzers) should should')
    (hn : List.Forall₂ (Plan.Of schema analyzers) mustNot mustNot')
    (ho : (Plan.bool must' should' mustNot' 1).hasOversized = false) :
    ∃ p, Plan.ofSearch schema analyzers query = .ok p ∧ s.any (p.fails score s) = false ∧
      s.found score p = s.found score (.bool must' should' mustNot' 1) :=
  ⟨_, Plan.ofSearch_eq_ok.2 ⟨_, hq, .bool hm hs hn⟩,
    any_fails_of_hasOversized (fun _ => .runAll ..) ho, found_congr hf fun _ => .runAll ..⟩

end Shards

end Corpus
