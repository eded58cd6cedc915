import Corpus.Proofs.Index.History
import Corpus.Proofs.Number.Key
import Corpus.Proofs.Search.Scan

/-! What plans say of a document, read directly, and their evaluation on a segment after any changes. -/

namespace Corpus

open Number

namespace Plan

theorem isPhrase_iff {places : List (List Nat × Nat)} :
    isPhrase places ↔ places ≠ [] ∧ ∃ start, ∀ p ∈ places, start + p.2 ∈ p.1 := by
  cases places with
  | nil => simp [isPhrase]
  | cons place rest =>
    obtain ⟨positions, offset⟩ := place
    simp only [isPhrase, List.any_eq_true, Bool.and_eq_true, decide_eq_true_eq, List.all_eq_true,
      List.contains_iff_mem, List.forall_mem_cons]
    constructor
    · rintro ⟨p, hp, hle, hrest⟩
      refine ⟨List.cons_ne_nil _ _, p - offset, ?_, hrest⟩
      rwa [Nat.sub_add_cancel hle]
    · rintro ⟨_, start, hp, hrest⟩
      refine ⟨start + offset, hp, Nat.le_add_left .., ?_⟩
      rwa [Nat.add_sub_cancel]

end Plan

namespace Criterion

def Matches (fields : Fields) : Criterion → Prop
  | .all => True
  | .term field text => ∃ tokens, (field, .text tokens) ∈ fields ∧ ∃ t ∈ tokens, t.text = text
  | .phrase field terms =>
    terms ≠ [] ∧ ∃ tokens, (field, .text tokens) ∈ fields ∧
      ∃ start, ∀ term ∈ terms, ∃ t ∈ tokens, t.text = term.1 ∧ t.position = start + term.2
  | .prefixed field start =>
    ∃ tokens, (field, .text tokens) ∈ fields ∧ ∃ t ∈ tokens, start.toList <+: t.text.toList
  | .wildcard field glob =>
    ∃ tokens, (field, .text tokens) ∈ fields ∧ ∃ t ∈ tokens,
      Text.Matches glob.toList t.text.toList
  | .numbers field lower upper =>
    ∃ x, (field, .number x) ∈ fields ∧ x.isNaN = false ∧ lower.Below x ∧ upper.Above x
  | .under field path => ∃ p, (field, .facet p) ∈ fields ∧ path <+: p

def Regular : Criterion → Prop
  | .numbers _ lower upper => lower.Regular ∧ upper.Regular
  | _ => True

end Criterion

theorem Fields.any_isPhrase_places?_iff {fields : Fields} {field : String}
    {terms : List (String × Nat)} :
    (fields.places? field terms).any Plan.isPhrase ↔
      terms ≠ [] ∧ ∃ start, ∀ term ∈ terms, ∃ p, fields.posting? field term.1 = some p ∧
        start + term.2 ∈ p.positions := by
  rw [Option.any_eq_true]
  simp only [Plan.isPhrase_iff, places?]
  constructor
  · rintro ⟨places, hp, hne, start, hall⟩
    constructor
    · intro hn
      rw [hn] at hp
      cases hp
      exact hne rfl
    · refine ⟨start, fun term ht => ?_⟩
      obtain ⟨place, hm, he⟩ := exists_mem_of_mapM hp term ht
      obtain ⟨p, hp, rfl⟩ := Option.map_eq_some_iff.1 he
      exact ⟨p, hp, hall _ hm⟩
  · rintro ⟨hne, start, hall⟩
    have hs : (fields.places? field terms).isSome := by
      refine isSome_mapM_iff.2 fun term ht => ?_
      obtain ⟨p, hp, -⟩ := hall term ht
      simp [hp]
    obtain ⟨places, hp⟩ := Option.isSome_iff_exists.1 hs
    refine ⟨places, hp, ?_, start, fun place hm => ?_⟩
    · intro hn
      obtain ⟨term, ht⟩ := List.exists_mem_of_ne_nil terms hne
      obtain ⟨place, hm, -⟩ := exists_mem_of_mapM hp term ht
      rw [hn] at hm
      cases hm
    · obtain ⟨term, ht, he⟩ := exists_of_mem_mapM hp place hm
      obtain ⟨p, hpos, hat⟩ := hall term ht
      have he : (fields.posting? field term.1).map (fun p => (p.positions, term.2)) = some place := he
      rw [hpos] at he
      cases he
      exact hat

theorem mem_positionsOf {tokens : List Token} {text : String} {position : Nat} :
    position ∈ positionsOf tokens text ↔ ∃ t ∈ tokens, t.text = text ∧ t.position = position := by
  simp [positionsOf, and_assoc]

theorem Posting.exists_of?_iff {tokens : List Token} {text : String} {position : Nat} :
    (∃ p, of? tokens text = some p ∧ position ∈ p.positions) ↔
      ∃ t ∈ tokens, t.text = text ∧ t.position = position := by
  constructor
  · rintro ⟨p, hp, hat⟩
    rw [positions_of? hp] at hat
    exact mem_positionsOf.1 hat
  · rintro ⟨t, ht, htext, hat⟩
    obtain ⟨p, hp⟩ := Option.isSome_iff_exists.1 (isSome_of?.2 ⟨t, ht, htext⟩)
    refine ⟨p, hp, ?_⟩
    rw [positions_of? hp]
    exact mem_positionsOf.2 ⟨t, ht, htext, hat⟩

namespace Fields

variable {fields : Fields}

theorem any_words {field : String} {P : String → Prop} :
    (∃ text ∈ fields.words field, P text) ↔
      ∃ tokens, (field, .text tokens) ∈ fields ∧ ∃ t ∈ tokens, P t.text := by
  simp only [mem_words]
  constructor
  · intro ⟨_, ⟨tokens, hm, t, ht, rfl⟩, hp⟩
    exact ⟨tokens, hm, t, ht, hp⟩
  · intro ⟨tokens, hm, t, ht, hp⟩
    exact ⟨t.text, ⟨tokens, hm, t, ht, rfl⟩, hp⟩

theorem isPhrase_iff_of_nodup (hn : (fields.map (·.1)).Nodup) {field : String}
    {terms : List (String × Nat)} :
    (fields.places? field terms).any Plan.isPhrase ↔
      (Criterion.phrase field terms).Matches fields := by
  rw [any_isPhrase_places?_iff, Criterion.Matches]
  refine and_congr_right fun hne => ?_
  constructor
  · intro ⟨start, hall⟩
    obtain ⟨term, ht⟩ := List.exists_mem_of_ne_nil terms hne
    obtain ⟨p, hp, -⟩ := hall term ht
    obtain ⟨tokens, hm, -⟩ := mem_words.1 (isSome_posting?.1 (Option.isSome_of_eq_some hp))
    refine ⟨tokens, hm, start, fun term ht => ?_⟩
    obtain ⟨p, hp, hat⟩ := hall term ht
    rw [posting?_eq_of_mem hn hm] at hp
    exact Posting.exists_of?_iff.1 ⟨p, hp, hat⟩
  · intro ⟨tokens, hm, start, hall⟩
    refine ⟨start, fun term ht => ?_⟩
    rw [posting?_eq_of_mem hn hm]
    exact Posting.exists_of?_iff.2 (hall term ht)

end Fields

theorem Criterion.isSome_score?_iff {c : Criterion} (hc : c.Regular) {fields : Fields}
    (hn : (fields.map (·.1)).Nodup) (score : Scorer) (st : Statistics) (boost : Binary32) :
    (c.score? score st boost fields).isSome ↔ c.Matches fields := by
  cases c with
  | all => simp [score?, Matches]
  | term field text =>
    rw [score?, Option.isSome_map, Fields.isSome_posting?, Fields.mem_words]
    rfl
  | phrase field terms => rw [score?, Option.isSome_ite, Fields.isPhrase_iff_of_nodup hn]
  | prefixed field start =>
    simp only [score?, Option.isSome_ite, Matches, List.any_eq_true, TermIndex.startsWith,
      List.isPrefixOf_iff_prefix]
    exact Fields.any_words (P := (start.toList <+: ·.toList))
  | wildcard field glob =>
    simp only [score?, Option.isSome_ite, Matches, List.any_eq_true, Text.globMatches_iff]
    exact Fields.any_words (P := (Text.Matches glob.toList ·.toList))
  | numbers field lower upper =>
    simp only [score?, Option.isSome_ite, Matches, List.any_eq_true, Bool.and_eq_true,
      decide_eq_true_eq, Fields.mem_keys]
    constructor
    · rintro ⟨key, ⟨x, hm, hx, hk⟩, hl, hu⟩
      rw [← hk] at hl hu
      exact ⟨x, hm, hx, (Bound.least_le_sortKey hc.1 hx).1 hl, (Bound.sortKey_lt_limit hc.2 hx).1 hu⟩
    · rintro ⟨x, hm, hx, hl, hu⟩
      exact ⟨_, ⟨x, hm, hx, rfl⟩, (Bound.least_le_sortKey hc.1 hx).2 hl,
        (Bound.sortKey_lt_limit hc.2 hx).2 hu⟩
  | under field path =>
    simp only [score?, Option.isSome_ite, Matches, Option.any_eq_true, List.isPrefixOf_iff_prefix,
      ← Fields.mem_paths, Fields.mem_paths_of_onePath (Fields.onePath_of_nodup hn)]

namespace Plan

mutual

def Matches (fields : Fields) : Plan → Prop
  | .nothing => False
  | .leaf criterion _ => criterion.Matches fields
  | .bool must should mustNot _ =>
    MatchesAll fields must ∧ (must = [] → should ≠ [] → MatchesAny fields should) ∧
      ¬MatchesAny fields mustNot

def MatchesAll (fields : Fields) : List Plan → Prop
  | [] => True
  | p :: ps => Matches fields p ∧ MatchesAll fields ps

def MatchesAny (fields : Fields) : List Plan → Prop
  | [] => False
  | p :: ps => Matches fields p ∨ MatchesAny fields ps

end

mutual

def criteria : Plan → List Criterion
  | .nothing => []
  | .leaf criterion _ => [criterion]
  | .bool must should mustNot _ => criteriaOf must ++ criteriaOf should ++ criteriaOf mustNot

def criteriaOf : List Plan → List Criterion
  | [] => []
  | p :: ps => criteria p ++ criteriaOf ps

end

theorem scoreEach?_isEmpty (score : Scorer) (st : Statistics) (fields : Fields) (ps : List Plan) :
    (scoreEach? score st fields ps).isEmpty = ps.isEmpty := by
  cases ps <;> rfl

theorem admits_iff {must should mustNot : List (Option Binary32)} :
    admits must should mustNot ↔
      must.all (·.isSome) ∧ (must.isEmpty → !should.isEmpty → should.any (·.isSome)) ∧
        ¬mustNot.any (·.isSome) := by
  have hnot : mustNot.all (·.isNone) = !mustNot.any (·.isSome) := by
    rw [List.not_any_eq_all_not]
    congr 1
    funext o
    cases o <;> rfl
  rw [admits, hnot]
  cases must.isEmpty <;> cases should.isEmpty <;> simp [and_assoc]

mutual

theorem isSome_score?_iff {fields : Fields} (hn : (fields.map (·.1)).Nodup) (score : Scorer)
    (st : Statistics) : ∀ p : Plan, (∀ c ∈ p.criteria, c.Regular) →
      ((p.score? score st fields).isSome ↔ p.Matches fields)
  | .nothing, _ => by simp [score?, Matches]
  | .leaf criterion boost, hc => Criterion.isSome_score?_iff (hc _ (.head _)) hn score st boost
  | .bool must should mustNot boost, hc => by
    simp only [criteria, List.forall_mem_append] at hc
    rw [score?, blend, Option.isSome_ite, admits_iff, scoreEach?_isEmpty, scoreEach?_isEmpty,
      (scoreEach?_iff hn score st must hc.1.1).1, (scoreEach?_iff hn score st should hc.1.2).2,
      (scoreEach?_iff hn score st mustNot hc.2).2, Matches]
    simp

theorem scoreEach?_iff {fields : Fields} (hn : (fields.map (·.1)).Nodup) (score : Scorer)
    (st : Statistics) : ∀ ps : List Plan, (∀ c ∈ criteriaOf ps, c.Regular) →
      ((scoreEach? score st fields ps).all (·.isSome) ↔ MatchesAll fields ps) ∧
        ((scoreEach? score st fields ps).any (·.isSome) ↔ MatchesAny fields ps)
  | [], _ => by simp [scoreEach?, MatchesAll, MatchesAny]
  | p :: ps, hc => by
    rw [criteriaOf, List.forall_mem_append] at hc
    have hp := isSome_score?_iff hn score st p hc.1
    have hps := scoreEach?_iff hn score st ps hc.2
    simp [scoreEach?, MatchesAll, MatchesAny, ← hp, ← hps.1, ← hps.2]

end

theorem run_of_hasOversized {p : Plan} (hp : p.hasOversized = false) (score : Scorer) (shards : Shards)
    (s : Segment) : p.run score shards s = .ok (p.evaluate score shards s) := by
  rw [run, hp, Bool.false_and, if_neg Bool.false_ne_true]

/-- Evaluation finds the documents that are left and of which the plan holds. -/
theorem run_edited {edits : List Segment.Edit}
    (hn : ∀ d, .upsert d ∈ edits → (d.fields.map (·.1)).Nodup) {p : Plan}
    (hc : ∀ c ∈ p.criteria, c.Regular) (hp : p.hasOversized = false) (score : Scorer)
    (shards : Shards) :
    ∃ scored, p.run score shards (.edited edits) = .ok scored ∧
      (∀ doc, doc ∈ scored.docs ↔
        ∃ id d, (Segment.edited edits).docOf? id = some doc ∧
          Segment.survivor id edits = some d ∧ p.Matches d.fields) ∧
      (∀ id, ((Segment.edited edits).docOf? id).isSome ↔ (Segment.survivor id edits).isSome) ∧
      ∀ id id' doc, (Segment.edited edits).docOf? id = some doc →
        (Segment.edited edits).docOf? id' = some doc → id = id' := by
  have hone : ∀ d, .upsert d ∈ edits → Fields.OnePath d.fields := fun d hd =>
    Fields.onePath_of_nodup (hn d hd)
  have hf := Segment.faithful_edited hone
  have hdoc := Segment.document?_edited hone
  refine ⟨_, run_of_hasOversized hp score shards _, fun doc => ?_, fun id => ?_, ?_⟩
  · rw [Dict.mem_docs, evaluate_eq_scan hf, scan, Dict.get?_filterMapValues, Option.isSome_bind,
      Option.any_eq_true]
    constructor
    · intro ⟨d, hd, hs⟩
      have hleft : Segment.survivor d.id edits = some d :=
        (hdoc d.id).symm.trans (hf.document?_eq_some.2 ⟨doc, hd, rfl⟩)
      have hm := (isSome_score?_iff (hn d (Segment.mem_of_survivor hleft)) _ _ p hc).1 hs
      exact ⟨d.id, d, hf.docOf?_eq_some.2 ⟨d, hd, rfl⟩, hleft, hm⟩
    · intro ⟨id, d, hid, hleft, hm⟩
      have hd := (hdoc id).trans hleft
      rw [Segment.document?, hid, Option.bind_some] at hd
      exact ⟨d, hd, (isSome_score?_iff (hn d (Segment.mem_of_survivor hleft)) _ _ p hc).2 hm⟩
  · rw [hf.isSome_docOf?, hdoc]
  · intro id id' doc h h'
    obtain ⟨d, hd, rfl⟩ := hf.docOf?_eq_some.1 h
    obtain ⟨d', hd', rfl⟩ := hf.docOf?_eq_some.1 h'
    rw [hd] at hd'
    cases hd'
    rfl

theorem run_edited_replaced :
    let edits : List Segment.Edit :=
      [.upsert ⟨"a", 0, [("title", .text [.of "cat" 0 0]), ("size", .number 5)]⟩,
        .upsert ⟨"b", 0, [("title", .text [.of "red" 0 0, .of "cat" 1 4])]⟩,
        .upsert ⟨"a", 0, [("title", .text [.of "big" 0 0, .of "red" 1 4, .of "cat" 2 8]),
          ("size", .number 3)]⟩,
        .delete "c"]
    let p : Plan := .allOf
      [.leaf (.phrase "title" [("red", 0), ("cat", 1)]) 1,
        .leaf (.numbers "size" (.included 2) (.excluded 4)) 1]
    ∃ scored, p.run (fun _ _ _ => 1) [] (.edited edits) = .ok scored ∧ 0 ∈ scored.docs := by
  intro edits p
  have hn : ∀ d, .upsert d ∈ edits → (d.fields.map (·.1)).Nodup := by
    intro d hd
    simp only [edits, List.mem_cons, List.not_mem_nil, or_false, Segment.Edit.upsert.injEq,
      reduceCtorEq] at hd
    rcases hd with rfl | rfl | rfl <;> decide
  have hc : ∀ c ∈ p.criteria, c.Regular := by
    simp only [p, allOf, criteria, criteriaOf, List.append_nil, List.forall_mem_append,
      List.forall_mem_singleton]
    exact ⟨trivial, by decide +kernel, by decide +kernel⟩
  have ⟨scored, hrun, hdocs, _⟩ := run_edited hn hc (by decide) (fun _ _ _ => 1) []
  refine ⟨scored, hrun, (hdocs 0).2 ⟨"a", _, by decide, rfl, ?_⟩⟩
  have hsize : (Bound.included 2).Below 3 ∧ (Bound.excluded 4).Above 3 := by decide +kernel
  refine ⟨⟨⟨by decide, _, .head _, 1, ?_⟩, ⟨3, .tail _ (.head _), by decide +kernel, hsize⟩,
    trivial⟩, nofun, not_false⟩
  simp [Token.of]

end Plan

end Corpus
