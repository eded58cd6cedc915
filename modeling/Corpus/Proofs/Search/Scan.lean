import Corpus.Proofs.Data.Failure
import Corpus.Proofs.Index.Segment
import Corpus.Search.Limit

/-! Evaluation over the indexes of a segment is a scan of its documents, each of which is matched and
scored by its own fields and by statistics of all documents together. -/

namespace Corpus

open Number

structure Statistics where
  docFreq : String → String → Nat
  mean : String → FieldMean

def Shards.statistics (s : Shards) : Statistics := ⟨s.docFreq, s.fieldMean⟩

def Fields.places? (fields : Fields) (field : String) (terms : List (String × Nat)) :
    Option (List (List Nat × Nat)) :=
  terms.mapM fun (text, offset) => (posting? fields field text).map fun p => (p.positions, offset)

def Criterion.score? (score : Scorer) (st : Statistics) (boost : Binary32) (fields : Fields) :
    Criterion → Option Binary32
  | .all => some boost
  | .term field text =>
    (fields.posting? field text).map fun p => score p (st.docFreq field text) (st.mean field) * boost
  | .phrase field terms =>
    if (fields.places? field terms).any Plan.isPhrase then
      some (Binary.sum (terms.filterMap fun (text, _) =>
        (fields.posting? field text).map fun p =>
          score p (st.docFreq field text) (st.mean field)) * boost)
    else none
  | .prefixed field start =>
    if (fields.words field).any (TermIndex.startsWith start) then some boost else none
  | .wildcard field glob =>
    if (fields.words field).any fun text => Text.globMatches glob.toList text.toList then some boost
    else none
  | .numbers field lower upper =>
    if (fields.keys field).any fun key => lower.least ≤ key && key < upper.limit then some boost
    else none
  | .under field path => if (fields.path? field).any path.isPrefixOf then some boost else none

namespace Plan

/-- Whether the parts of a document, each with its score if it matches, make the whole match. -/
def admits (must should mustNot : List (Option Binary32)) : Bool :=
  must.all (·.isSome) && (!must.isEmpty || should.isEmpty || should.any (·.isSome)) &&
    mustNot.all (·.isNone)

def blend (must should mustNot : List (Option Binary32)) (boost : Binary32) : Option Binary32 :=
  if admits must should mustNot then
    some (if (must ++ should).isEmpty then boost
      else Binary.sum ((must ++ should).filterMap id) * boost)
  else none

mutual

def score? (score : Scorer) (st : Statistics) (fields : Fields) : Plan → Option Binary32
  | .nothing => none
  | .leaf criterion boost => criterion.score? score st boost fields
  | .bool must should mustNot boost =>
    blend (scoreEach? score st fields must) (scoreEach? score st fields should)
      (scoreEach? score st fields mustNot) boost

def scoreEach? (score : Scorer) (st : Statistics) (fields : Fields) :
    List Plan → List (Option Binary32)
  | [] => []
  | p :: ps => score? score st fields p :: scoreEach? score st fields ps

end

theorem mem_docsOf {lists : List (String × PostingList)} {doc : Nat} :
    doc ∈ docsOf lists ↔ ∃ text l, (text, l) ∈ lists ∧ (l.get? doc).isSome := by
  simp only [docsOf, DocSet.mem_unions_map, Prod.exists, Dict.mem_docs]

theorem scoreEach?_eq_map (score : Scorer) (st : Statistics) (fields : Fields) (ps : List Plan) :
    scoreEach? score st fields ps = ps.map (score? score st fields) := by
  induction ps with
  | nil => rfl
  | cons p rest ih => rw [scoreEach?, ih, List.map_cons]

theorem isSome_of_isPhraseAt {terms : List PhraseTerm} {doc : Nat} (h : isPhraseAt terms doc) :
    terms ≠ [] ∧ ∀ t ∈ terms, (t.postings.get? doc).isSome := by
  rw [isPhraseAt, Option.any_eq_true] at h
  obtain ⟨places, hp, hat⟩ := h
  constructor
  · intro hn
    rw [hn] at hp
    cases hp
    cases hat
  · intro t ht
    have := isSome_mapM_iff.1 (Option.isSome_of_eq_some hp) t ht
    rwa [PhraseTerm.place?, Option.isSome_map] at this

theorem mem_foldl_inter {terms : List PhraseTerm} {docs : DocSet} {doc : Nat} :
    doc ∈ terms.foldl (fun docs t => docs.inter t.postings.docs) docs ↔
      doc ∈ docs ∧ ∀ t ∈ terms, (t.postings.get? doc).isSome := by
  induction terms generalizing docs with
  | nil => simp
  | cons t rest ih => simp [ih, and_assoc]

theorem mem_phraseDocs {terms : List PhraseTerm} {doc : Nat} :
    doc ∈ phraseDocs terms ↔ isPhraseAt terms doc := by
  cases terms with
  | nil => simp [phraseDocs, isPhraseAt, isPhrase]
  | cons t rest =>
    simp only [phraseDocs, DocSet.mem_filter, mem_foldl_inter, Dict.mem_docs,
      and_iff_right_iff_imp]
    exact fun h => List.forall_mem_cons.1 (isSome_of_isPhraseAt h).2

end Plan

namespace Segment.Faithful

variable {s : Segment}

theorem posting?_eq (h : s.Faithful) (field text : String) (doc : Nat) :
    (s.terms.get? field text).bind (·.get? doc) =
      (s.docs.get? doc).bind (Fields.posting? ·.fields field text) :=
  h.terms.posting? field text doc

theorem mem_docsOf (h : s.Faithful) {field : String} {P : String → Prop}
    {lists : List (String × PostingList)}
    (hl : ∀ text l, (text, l) ∈ lists ↔ s.terms.get? field text = some l ∧ P text) {doc : Nat} :
    doc ∈ Plan.docsOf lists ↔
      ∃ d, s.docs.get? doc = some d ∧ ∃ text ∈ Fields.words d.fields field, P text := by
  rw [Plan.mem_docsOf]
  constructor
  · intro ⟨text, l, hm, hd⟩
    obtain ⟨hg, hp⟩ := (hl text l).1 hm
    have he := h.posting?_eq field text doc
    rw [hg, Option.bind_some] at he
    rw [he, Option.isSome_bind, Option.any_eq_true] at hd
    obtain ⟨d, hd, hs⟩ := hd
    exact ⟨d, hd, text, Fields.isSome_posting?.1 hs, hp⟩
  · intro ⟨d, hd, text, ht, hp⟩
    have he := h.posting?_eq field text doc
    rw [hd, Option.bind_some] at he
    have hs := Fields.isSome_posting?.2 ht
    rw [← he, Option.isSome_bind, Option.any_eq_true] at hs
    obtain ⟨l, hg, hs⟩ := hs
    exact ⟨text, l, (hl text l).2 ⟨hg, hp⟩, hs⟩

theorem term?_bind_posting? (h : s.Faithful) {field : String} {doc : Nat} {d : Document}
    (hd : s.docs.get? doc = some d) (g : String → Nat → Posting → γ) (term : String × Nat) :
    ((s.terms.get? field term.1).map (Plan.PhraseTerm.mk term.1 · term.2)).bind
        (fun t => (t.postings.get? doc).map (g t.text t.offset)) =
      (Fields.posting? d.fields field term.1).map (g term.1 term.2) := by
  have he := h.posting?_eq field term.1 doc
  rw [hd, Option.bind_some] at he
  rw [← he]
  cases s.terms.get? field term.1 <;> rfl

theorem mem_range (h : s.Faithful) {field : String} {lower upper : Bound} {doc : Nat} :
    doc ∈ s.numbers.range field lower upper ↔
      ∃ d, s.docs.get? doc = some d ∧
        ∃ key ∈ Fields.keys d.fields field, lower.least ≤ key ∧ key < upper.limit := by
  rw [NumberIndex.mem_range]
  constructor
  · intro ⟨key, hl, hu, hk⟩
    obtain ⟨d, hd, hk⟩ := (h.numbers field key doc).1 hk
    exact ⟨d, hd, key, hk, hl, hu⟩
  · intro ⟨d, hd, key, hk, hl, hu⟩
    exact ⟨key, hl, hu, (h.numbers field key doc).2 ⟨d, hd, hk⟩⟩

theorem mem_docsUnder (h : s.Faithful) {field : String} {path : Path} {doc : Nat} :
    doc ∈ s.facets.docsUnder field path ↔
      ∃ d, s.docs.get? doc = some d ∧ ∃ p, Fields.path? d.fields field = some p ∧ path <+: p := by
  simp only [h.facets.mirrors field path doc, h.facets.pathOf?, Option.bind_eq_some_iff]
  constructor
  · intro ⟨p, ⟨d, hd, hp⟩, hs⟩
    exact ⟨d, hd, p, hp, hs⟩
  · intro ⟨d, hd, p, hp, hs⟩
    exact ⟨p, ⟨d, hd, hp⟩, hs⟩

theorem get?_toDict (docs : DocSet) (f : Nat → ν) {P : Document → Prop} [DecidablePred P]
    (hm : ∀ doc, doc ∈ docs ↔ ∃ d, s.docs.get? doc = some d ∧ P d) (doc : Nat) :
    (docs.toDict f).get? doc = (s.docs.get? doc).bind fun d => if P d then some (f doc) else none := by
  rw [DocSet.get?_toDict]
  cases hd : s.docs.get? doc with
  | none => rw [if_neg (by simp [hm, hd]), Option.bind_none]
  | some d => simp [hm, hd]

theorem places?_eq (h : s.Faithful) {doc : Nat} {d : Document}
    (hd : s.docs.get? doc = some d) (field : String) (terms : List (String × Nat)) :
    (terms.mapM fun (text, offset) =>
        (s.terms.get? field text).map (Plan.PhraseTerm.mk text · offset)).bind
        (·.mapM (Plan.PhraseTerm.place? · doc)) =
      Fields.places? d.fields field terms := by
  rw [mapM_bind_mapM, Fields.places?]
  congr 1
  funext term
  exact h.term?_bind_posting? hd (fun _ offset p => (p.positions, offset)) term

theorem not_mem_phraseDocs (h : s.Faithful) {field : String} {terms : List (String × Nat)}
    {found : List Plan.PhraseTerm} {doc : Nat} (hd : s.docs.get? doc = none)
    (hf : (terms.mapM fun (text, offset) =>
      (s.terms.get? field text).map (Plan.PhraseTerm.mk text · offset)) = some found) :
    doc ∉ Plan.phraseDocs found := by
  intro hm
  -- the document would be among the postings of some term
  obtain ⟨hne, hall⟩ := Plan.isSome_of_isPhraseAt (Plan.mem_phraseDocs.1 hm)
  obtain ⟨t, ht⟩ := List.exists_mem_of_ne_nil found hne
  obtain ⟨term, -, hterm⟩ := exists_of_mem_mapM hf t ht
  obtain ⟨l, hl, he⟩ := Option.map_eq_some_iff.1 hterm
  have hp := h.posting?_eq field term.1 doc
  rw [hl, hd, Option.bind_some, Option.bind_none] at hp
  have := hall t ht
  rw [← he, hp] at this
  cases this

theorem get?_lookup_phrase (h : s.Faithful) (score : Scorer) (shards : Shards) (boost : Binary32)
    (field : String) (terms : List (String × Nat)) (doc : Nat) :
    (Plan.lookup score shards s boost (.phrase field terms)).get? doc =
      (s.docs.get? doc).bind fun d =>
        (Criterion.phrase field terms).score? score shards.statistics boost d.fields := by
  rw [Plan.lookup]
  cases hd : s.docs.get? doc with
  | none =>
    split
    next => rfl
    next found hf => rw [DocSet.get?_toDict, if_neg (h.not_mem_phraseDocs hd hf), Option.bind_none]
  | some d =>
    rw [Option.bind_some, Criterion.score?]
    have hp := h.places?_eq hd field terms
    split
    next hn =>
      rw [hn, Option.bind_none] at hp
      rw [← hp]
      rfl
    next found hf =>
      rw [hf, Option.bind_some] at hp
      let weigh (text : String) (_ : Nat) (p : Posting) : Binary32 :=
        score p (shards.docFreq field text) (shards.fieldMean field)
      have hs : found.filterMap (fun t => (t.postings.get? doc).map (weigh t.text t.offset)) =
          terms.filterMap fun term => (Fields.posting? d.fields field term.1).map (weigh term.1 0) := by
        rw [filterMap_of_mapM_eq_some _ hf]
        congr 1
        funext term
        exact h.term?_bind_posting? hd weigh term
      simp only [DocSet.get?_toDict, Plan.mem_phraseDocs, Plan.isPhraseAt, hp, List.filterMap_map]
      congr 3
      exact congrArg Binary.sum hs

theorem get?_lookup (h : s.Faithful) (score : Scorer) (shards : Shards) (boost : Binary32)
    (c : Criterion) (doc : Nat) :
    (Plan.lookup score shards s boost c).get? doc =
      (s.docs.get? doc).bind fun d => c.score? score shards.statistics boost d.fields := by
  cases c with
  | all =>
    rw [Plan.lookup, live, DocSet.get?_toDict]
    cases hd : s.docs.get? doc <;> simp [hd, Criterion.score?]
  | term field text =>
    have he := h.posting?_eq field text doc
    rw [Plan.lookup, Dict.get?_mapValues, Dict.getD_empty_get?, he]
    cases s.docs.get? doc <;> rfl
  | phrase field terms => exact h.get?_lookup_phrase score shards boost field terms doc
  | prefixed field start =>
    refine get?_toDict _ _ (fun doc => ?_) doc
    simp only [h.mem_docsOf fun text l => TermIndex.mem_withStart, List.any_eq_true,
      TermIndex.startsWith, List.isPrefixOf_iff_prefix]
  | wildcard field glob =>
    refine get?_toDict _ _ (fun doc => ?_) doc
    simp only [h.mem_docsOf fun text l => TermIndex.mem_matching, List.any_eq_true,
      Text.globMatches_iff]
  | numbers field lower upper =>
    refine get?_toDict _ _ (fun doc => ?_) doc
    simp only [h.mem_range, List.any_eq_true, Bool.and_eq_true, decide_eq_true_eq]
  | under field path =>
    refine get?_toDict _ _ (fun doc => ?_) doc
    simp only [h.mem_docsUnder, Option.any_eq_true, List.isPrefixOf_iff_prefix]

end Segment.Faithful

namespace Plan

theorem mem_foldl_inter_docs {parts : List Scored} {docs : DocSet} {doc : Nat} :
    doc ∈ parts.foldl (fun docs q => docs.inter q.docs) docs ↔
      doc ∈ docs ∧ ∀ q ∈ parts, (q.get? doc).isSome := by
  induction parts generalizing docs with
  | nil => simp
  | cons q rest ih => simp [ih, and_assoc]

theorem mem_foldl_diff_docs {parts : List Scored} {docs : DocSet} {doc : Nat} :
    doc ∈ parts.foldl (fun docs q => docs.diff q.docs) docs ↔
      doc ∈ docs ∧ ∀ q ∈ parts, (q.get? doc).isNone := by
  induction parts generalizing docs with
  | nil => simp
  | cons q rest ih => simp [ih, and_assoc]

theorem mem_matched {live : DocSet} {must should mustNot : List Scored} {doc : Nat}
    (hl : ∀ p ∈ must ++ should, (p.get? doc).isSome → doc ∈ live) :
    doc ∈ matched live must should mustNot ↔
      doc ∈ live ∧
        admits (must.map (·.get? doc)) (should.map (·.get? doc)) (mustNot.map (·.get? doc)) := by
  cases must with
  | cons p ps =>
    have hp := hl p (.head _)
    simp only [matched, mem_foldl_diff_docs, mem_foldl_inter_docs, Dict.mem_docs]
    simp only [admits, List.map_cons, List.all_cons, List.all_map, List.isEmpty_cons, Bool.not_false,
      Bool.true_or, Bool.and_true, Bool.and_eq_true, List.all_eq_true, Function.comp_apply]
    exact ⟨fun h => ⟨hp h.1.1, h⟩, And.right⟩
  | nil =>
    cases should with
    | nil => simp [matched, mem_foldl_diff_docs, admits]
    | cons q qs =>
      have hq : ∀ p ∈ q :: qs, (p.get? doc).isSome → doc ∈ live := hl
      simp only [matched, mem_foldl_diff_docs, DocSet.mem_unions_map, Dict.mem_docs]
      simp only [admits, List.map_nil, List.all_nil, List.isEmpty_nil, List.isEmpty_map,
        List.isEmpty_cons, Bool.not_true, Bool.false_or, Bool.true_and, List.any_map, List.all_map,
        Bool.and_eq_true, List.any_eq_true, List.all_eq_true, Function.comp_apply]
      exact ⟨fun h => ⟨h.1.elim fun p hp => hq p hp.1 hp.2, h⟩, And.right⟩

theorem get?_combine {live : DocSet} {must should mustNot : List Scored} {doc : Nat}
    (hl : ∀ p ∈ must ++ should, (p.get? doc).isSome → doc ∈ live) (boost : Binary32) :
    (combine live must should mustNot boost).get? doc =
      if doc ∈ live then
        blend (must.map (·.get? doc)) (should.map (·.get? doc)) (mustNot.map (·.get? doc)) boost
      else none := by
  simp only [combine, DocSet.get?_toDict, mem_matched hl, blend]
  by_cases hd : doc ∈ live
  · simp [hd, ← List.map_append, List.filterMap_map]
  · simp [hd]

def scan (score : Scorer) (st : Statistics) (s : Segment) (p : Plan) : Scored :=
  s.docs.filterMapValues fun d => p.score? score st d.fields

section

variable {score : Scorer} {st : Statistics} {s : Segment}

theorem get?_scan (p : Plan) (doc : Nat) :
    (p.scan score st s).get? doc = (s.docs.get? doc).bind fun d => p.score? score st d.fields :=
  Dict.get?_filterMapValues ..

theorem map_get?_scan {doc : Nat} {d : Document} (hd : s.docs.get? doc = some d) (ps : List Plan) :
    (ps.map (scan score st s)).map (·.get? doc) = scoreEach? score st d.fields ps := by
  rw [scoreEach?_eq_map, List.map_map]
  refine List.map_congr_left fun p _ => ?_
  rw [Function.comp_apply, get?_scan, hd, Option.bind_some]

theorem mem_live_of_scan (must should : List Plan) {doc : Nat} :
    ∀ p ∈ must.map (scan score st s) ++ should.map (scan score st s),
      (p.get? doc).isSome → doc ∈ s.live := by
  intro p hp hd
  rw [← List.map_append] at hp
  obtain ⟨q, -, rfl⟩ := List.mem_map.1 hp
  rw [get?_scan, Option.isSome_bind, Option.any_eq_true] at hd
  obtain ⟨d, hd, -⟩ := hd
  rw [Segment.live, Dict.mem_docs, hd]
  rfl

theorem combine_scan (must should mustNot : List Plan) (boost : Binary32) :
    combine s.live (must.map (scan score st s)) (should.map (scan score st s))
        (mustNot.map (scan score st s)) boost =
      scan score st s (.bool must should mustNot boost) := by
  refine Dict.ext_get? fun doc => ?_
  rw [get?_combine (mem_live_of_scan must should), get?_scan]
  cases hd : s.docs.get? doc with
  | none => simp [Segment.live, hd]
  | some d =>
    rw [map_get?_scan hd, map_get?_scan hd, map_get?_scan hd, if_pos (by simp [Segment.live, hd])]
    rfl

end

mutual

theorem evaluate_eq_scan {s : Segment} (h : s.Faithful) (score : Scorer) (shards : Shards) :
    ∀ p : Plan, p.evaluate score shards s = p.scan score shards.statistics s
  | .nothing => by
    refine Dict.ext_get? fun doc => ?_
    rw [get?_scan]
    cases s.docs.get? doc <;> rfl
  | .leaf criterion boost => by
    refine Dict.ext_get? fun doc => ?_
    rw [evaluate, h.get?_lookup, get?_scan]
    rfl
  | .bool must should mustNot boost => by
    rw [evaluate, evaluateEach_eq_scan h score shards must, evaluateEach_eq_scan h score shards should,
      evaluateEach_eq_scan h score shards mustNot, combine_scan]

theorem evaluateEach_eq_scan {s : Segment} (h : s.Faithful) (score : Scorer) (shards : Shards) :
    ∀ ps : List Plan, evaluateEach score shards s ps = ps.map (scan score shards.statistics s)
  | [] => rfl
  | p :: ps => by
    rw [evaluateEach, evaluate_eq_scan h score shards p, evaluateEach_eq_scan h score shards ps,
      List.map_cons]

end

theorem mem_matched_evaluateEach {s : Segment} (h : s.Faithful) {score : Scorer} {shards : Shards}
    {doc : Nat} (must should mustNot : List Plan) :
    doc ∈ matched s.live (evaluateEach score shards s must) (evaluateEach score shards s should)
        (evaluateEach score shards s mustNot) ↔
      ∃ d, s.docs.get? doc = some d ∧
        admits (scoreEach? score shards.statistics d.fields must)
          (scoreEach? score shards.statistics d.fields should)
          (scoreEach? score shards.statistics d.fields mustNot) := by
  rw [evaluateEach_eq_scan h, evaluateEach_eq_scan h, evaluateEach_eq_scan h,
    mem_matched (mem_live_of_scan must should), Segment.live, Dict.mem_docs]
  cases hd : s.docs.get? doc with
  | none => simp
  | some d => simp [map_get?_scan hd]

end Plan

end Corpus
