import Corpus.Plan.Simplify
import Corpus.Proofs.Number.Neutral
import Corpus.Proofs.Search.Limit
import Mathlib.Data.List.Forall2

/-! Simplifying a plan changes neither what it matches nor how it scores, and meets no limit that the
plan itself does not meet. -/

namespace Corpus

open Number

namespace Plan

variable (score : Scorer) (shards : Shards) (s : Segment)

/-- Whether a plan can stand for another one on a segment. -/
structure Replaces (q p : Plan) : Prop where
  evaluate : q.evaluate score shards s = p.evaluate score shards s
  meets : q.meetsOversized score shards s → p.meetsOversized score shards s

variable {score shards s}

theorem Replaces.refl (p : Plan) : Replaces score shards s p p := ⟨rfl, id⟩

theorem Replaces.trans {p q r : Plan} (h : Replaces score shards s r q)
    (h' : Replaces score shards s q p) : Replaces score shards s r p :=
  ⟨h.evaluate.trans h'.evaluate, fun hm => h'.meets (h.meets hm)⟩

theorem Replaces.nothing {p : Plan} (h : p.evaluate score shards s = .empty) :
    Replaces score shards s .nothing p :=
  ⟨h.symm, nofun⟩

section

variable {qs ps : List Plan}

theorem evaluateEach_eq_map (ps : List Plan) :
    evaluateEach score shards s ps = ps.map (evaluate score shards s) := by
  induction ps with
  | nil => rfl
  | cons p rest ih => rw [evaluateEach, ih, List.map_cons]

theorem meetsInAny_eq_any (ps : List Plan) :
    meetsInAny score shards s ps = ps.any (meetsOversized score shards s) := by
  induction ps with
  | nil => rfl
  | cons p rest ih => rw [meetsInAny, ih, List.any_cons]

theorem evaluateEach_congr (h : List.Forall₂ (Replaces score shards s) qs ps) :
    evaluateEach score shards s qs = evaluateEach score shards s ps := by
  induction h with
  | nil => rfl
  | cons h _ ih => rw [evaluateEach, evaluateEach, h.evaluate, ih]

theorem meetsInAny_congr (h : List.Forall₂ (Replaces score shards s) qs ps) :
    meetsInAny score shards s qs → meetsInAny score shards s ps := by
  induction h with
  | nil => exact id
  | cons h _ ih =>
    rw [meetsInAny, meetsInAny, Bool.or_eq_true, Bool.or_eq_true]
    exact Or.imp h.meets ih

theorem meetsWhileLeft_congr (h : List.Forall₂ (Replaces score shards s) qs ps) (docs : DocSet) :
    meetsWhileLeft score shards s docs qs → meetsWhileLeft score shards s docs ps := by
  induction h generalizing docs with
  | nil => exact id
  | cons h _ ih =>
    simp only [meetsWhileLeft, h.evaluate, Bool.and_eq_true, Bool.or_eq_true]
    exact And.imp_right (Or.imp h.meets (ih _))

end

theorem Replaces.bool {must must' should should' mustNot mustNot' : List Plan}
    (hm : List.Forall₂ (Replaces score shards s) must' must)
    (hs : List.Forall₂ (Replaces score shards s) should' should)
    (hn : List.Forall₂ (Replaces score shards s) mustNot' mustNot) (boost : Binary32) :
    Replaces score shards s (.bool must' should' mustNot' boost)
      (.bool must should mustNot boost) where
  evaluate := by
    simp only [Plan.evaluate, evaluateEach_congr hm, evaluateEach_congr hs, evaluateEach_congr hn]
  meets := by
    simp only [meetsOversized, evaluateEach_congr hm, evaluateEach_congr hs, Bool.or_eq_true]
    exact Or.imp (Or.imp (meetsInAny_congr hm) (meetsInAny_congr hs)) (meetsWhileLeft_congr hn _)

section

variable {live : DocSet} {must should : List Scored} {doc : Nat}

theorem mem_matched_nil (mustNot : List Scored) :
    doc ∈ matched live must should mustNot ↔
      doc ∈ matched live must should [] ∧ ∀ p ∈ mustNot, (p.get? doc).isNone :=
  mem_foldl_diff_docs

theorem mem_matched_cons {p : Scored} {ps : List Scored} :
    doc ∈ matched live (p :: ps) should [] ↔ ∀ q ∈ p :: ps, (q.get? doc).isSome := by
  simp only [matched, List.foldl_nil, mem_foldl_inter_docs, Dict.mem_docs, List.forall_mem_cons]

theorem mem_matched_should (h : should ≠ []) :
    doc ∈ matched live [] should [] ↔ ∃ q ∈ should, (q.get? doc).isSome := by
  cases should with
  | nil => exact absurd rfl h
  | cons p rest => simp only [matched, List.foldl_nil, DocSet.mem_unions_map, Dict.mem_docs]

theorem get?_combine_eq (mustNot : List Scored) (boost : Binary32) :
    (combine live must should mustNot boost).get? doc =
      if doc ∈ matched live must should mustNot then
        some (if (must ++ should).isEmpty then boost
          else Binary.sum ((must ++ should).filterMap (·.get? doc)) * boost)
      else none :=
  DocSet.get?_toDict ..

theorem combine_singleton {p : Scored} (h : must ++ should = [p]) :
    combine live must should [] 1 = p := by
  refine Dict.ext_get? fun doc => ?_
  have hmem : doc ∈ matched live must should [] ↔ (p.get? doc).isSome := by
    cases must with
    | nil =>
      rw [List.nil_append] at h
      rw [h, mem_matched_should (List.cons_ne_nil p [])]
      simp
    | cons q rest =>
      obtain ⟨rfl, hrest⟩ := List.cons.inj h
      obtain ⟨rfl, rfl⟩ := List.append_eq_nil_iff.1 hrest
      simp [mem_matched_cons]
  rw [get?_combine_eq, h]
  cases hp : p.get? doc with
  | none => simp [hmem, hp]
  | some x =>
    have hsum : Binary.sum [x] * 1 = x := (Binary.mul_one _).trans (Binary.negZero_add x)
    simp [hmem, hp, hsum]

end

def kept (ps : List Plan) : List Plan := ps.filter (! isNothing ·)

theorem evaluate_of_isNothing {p : Plan} (h : p.isNothing) :
    p.evaluate score shards s = .empty := by
  cases p with
  | nothing => rfl
  | leaf | bool => cases h

theorem kept_cons (p : Plan) (ps : List Plan) :
    kept (p :: ps) = if p.isNothing then kept ps else p :: kept ps := by
  rw [kept, List.filter_cons]
  cases p.isNothing <;> rfl

theorem filterMap_get?_kept (ps : List Plan) (doc : Nat) :
    (evaluateEach score shards s (kept ps)).filterMap (·.get? doc) =
      (evaluateEach score shards s ps).filterMap (·.get? doc) := by
  induction ps with
  | nil => rfl
  | cons p rest ih =>
    rw [kept_cons, evaluateEach, List.filterMap_cons]
    cases hp : p.isNothing with
    | true =>
      rw [if_pos rfl, evaluate_of_isNothing hp]
      exact ih
    | false =>
      rw [if_neg Bool.false_ne_true, evaluateEach, List.filterMap_cons, ih]

theorem exists_isSome_kept (ps : List Plan) (doc : Nat) :
    (∃ q ∈ evaluateEach score shards s (kept ps), (q.get? doc).isSome) ↔
      ∃ q ∈ evaluateEach score shards s ps, (q.get? doc).isSome := by
  have h {qs : List Scored} : (∃ q ∈ qs, (q.get? doc).isSome) ↔ qs.filterMap (·.get? doc) ≠ [] := by
    simp [List.filterMap_eq_nil_iff, Option.isSome_iff_ne_none]
  rw [h, h, filterMap_get?_kept]

theorem matched_kept {must should : List Plan} (h : must = [] → kept should = [] → should = []) :
    matched s.live (evaluateEach score shards s must) (evaluateEach score shards s (kept should)) [] =
      matched s.live (evaluateEach score shards s must) (evaluateEach score shards s should) [] := by
  refine DocSet.ext fun doc => ?_
  cases must with
  | cons p rest => rw [evaluateEach, mem_matched_cons, mem_matched_cons]
  | nil =>
    by_cases hl : kept should = []
    · rw [hl, h rfl hl]
    · have hs : should ≠ [] := fun hn => hl (by rw [hn]; rfl)
      rw [evaluateEach, mem_matched_should (by simpa [evaluateEach_eq_map] using hl),
        mem_matched_should (by simpa [evaluateEach_eq_map] using hs), exists_isSome_kept]

theorem Replaces.kept_should {must should : List Plan} (mustNot : List Plan)
    (h : must = [] → kept should = [] → should = []) (boost : Binary32) :
    Replaces score shards s (.bool must (kept should) mustNot boost)
      (.bool must should mustNot boost) where
  evaluate := by
    -- a whole with neither required nor optional parts matches everything: not all of them may go
    have hempty : (evaluateEach score shards s must ++ evaluateEach score shards s (kept should)).isEmpty =
        (evaluateEach score shards s must ++ evaluateEach score shards s should).isEmpty := by
      rw [Bool.eq_iff_iff]
      simp only [evaluateEach_eq_map, List.isEmpty_iff, List.append_eq_nil_iff, List.map_eq_nil_iff]
      exact and_congr_right fun hm => ⟨h hm, fun hs => by rw [hs]; rfl⟩
    refine Dict.ext_get? fun doc => ?_
    simp only [Plan.evaluate, get?_combine_eq, hempty, List.filterMap_append, filterMap_get?_kept,
      mem_matched_nil (evaluateEach score shards s mustNot), matched_kept h]
  meets := by
    have hany : meetsInAny score shards s (kept should) → meetsInAny score shards s should := by
      simp only [meetsInAny_eq_any, List.any_eq_true]
      exact fun ⟨p, hp, hm⟩ => ⟨p, List.mem_of_mem_filter hp, hm⟩
    simp only [meetsOversized, matched_kept h, Bool.or_eq_true]
    exact Or.imp_left (Or.imp_right hany)

theorem isEmpty_of_meetsWhileLeft {docs : DocSet} {ps : List Plan}
    (h : meetsWhileLeft score shards s docs ps) : docs.isEmpty = false := by
  cases ps with
  | nil => cases h
  | cons p rest =>
    rw [meetsWhileLeft, Bool.and_eq_true] at h
    simpa using h.1

theorem meetsWhileLeft_kept {ps : List Plan} {docs : DocSet}
    (h : meetsWhileLeft score shards s docs (kept ps)) : meetsWhileLeft score shards s docs ps := by
  induction ps generalizing docs with
  | nil => exact h
  | cons p rest ih =>
    rw [kept_cons] at h
    cases hp : p.isNothing with
    | true =>
      -- nothing is taken away by such a part, so that as many documents are left after it
      have hdiff : docs.diff (p.evaluate score shards s).docs = docs :=
        DocSet.ext fun doc => by simp [evaluate_of_isNothing hp]
      rw [hp, if_pos rfl] at h
      rw [meetsWhileLeft, hdiff, isEmpty_of_meetsWhileLeft h, ih h]
      simp
    | false =>
      rw [hp, if_neg Bool.false_ne_true] at h
      simp only [meetsWhileLeft, Bool.and_eq_true, Bool.or_eq_true] at h ⊢
      exact ⟨h.1, h.2.imp_right ih⟩

theorem Replaces.kept_mustNot (must should mustNot : List Plan) (boost : Binary32) :
    Replaces score shards s (.bool must should (kept mustNot) boost)
      (.bool must should mustNot boost) where
  evaluate := by
    have hnone (doc : Nat) :
        (∀ p ∈ evaluateEach score shards s (kept mustNot), (p.get? doc).isNone) ↔
          ∀ p ∈ evaluateEach score shards s mustNot, (p.get? doc).isNone := by
      simpa [Option.not_isSome_iff_eq_none, Option.isNone_iff_eq_none] using
        not_congr (exists_isSome_kept mustNot doc)
    have hmatched : matched s.live (evaluateEach score shards s must) (evaluateEach score shards s should)
          (evaluateEach score shards s (kept mustNot)) =
        matched s.live (evaluateEach score shards s must) (evaluateEach score shards s should)
          (evaluateEach score shards s mustNot) :=
      DocSet.ext fun doc => by
        rw [mem_matched_nil, mem_matched_nil (evaluateEach score shards s mustNot), hnone]
    simp only [Plan.evaluate, combine, hmatched]
  meets := by
    simp only [meetsOversized, Bool.or_eq_true]
    exact Or.imp_right meetsWhileLeft_kept

theorem evaluate_bool_of_must {must : List Plan} (h : must.any isNothing) (should mustNot : List Plan)
    (boost : Binary32) : (Plan.bool must should mustNot boost).evaluate score shards s = .empty := by
  obtain ⟨p, hp, hn⟩ := List.any_eq_true.1 h
  refine Dict.ext_get? fun doc => ?_
  rw [evaluate, get?_combine_eq, if_neg, Dict.get?_empty]
  intro hd
  cases must with
  | nil => cases hp
  | cons q rest =>
    have hall := (mem_matched_cons.1 ((mem_matched_nil _).1 hd).1) (p.evaluate score shards s) (by
      have hmem := List.mem_map_of_mem (f := Plan.evaluate score shards s) hp
      rwa [← evaluateEach_eq_map, evaluateEach] at hmem)
    rw [evaluate_of_isNothing hn] at hall
    cases hall

theorem evaluate_bool_of_should {should : List Plan} (hs : should ≠ []) (h : kept should = [])
    (mustNot : List Plan) (boost : Binary32) :
    (Plan.bool [] should mustNot boost).evaluate score shards s = .empty := by
  refine Dict.ext_get? fun doc => ?_
  rw [evaluate, get?_combine_eq, if_neg, Dict.get?_empty]
  intro hd
  have hex := (mem_matched_should (by simpa [evaluateEach_eq_map] using hs)).1 ((mem_matched_nil _).1 hd).1
  rw [← exists_isSome_kept, h] at hex
  obtain ⟨q, hq, -⟩ := hex
  cases hq

theorem Replaces.pruned {p q : Plan} (h : pruned? p = some q) : Replaces score shards s q p := by
  cases p with
  | nothing | leaf => cases h
  | bool must should mustNot boost =>
    rw [pruned?] at h
    split at h
    next hm =>
      cases h
      exact .nothing (evaluate_bool_of_must hm ..)
    next =>
      split at h
      next => cases h
      next =>
        simp only [Bool.and_eq_true, List.isEmpty_iff, Bool.not_eq_true', List.isEmpty_eq_false_iff]
          at h
        split at h
        next he =>
          cases h
          obtain ⟨⟨rfl, hs⟩, hk⟩ := he
          exact .nothing (evaluate_bool_of_should hs hk ..)
        next he =>
          cases h
          refine (Replaces.kept_mustNot ..).trans (.kept_should mustNot (fun hm hk => ?_) boost)
          exact Decidable.not_not.1 fun hs => he ⟨⟨hm, hs⟩, hk⟩

theorem Replaces.unwrapped {p q : Plan} (h : unwrapped? p = some q) : Replaces score shards s q p := by
  cases p with
  | nothing | leaf => cases h
  | bool must should mustNot boost =>
    cases mustNot with
    | cons p rest => cases h
    | nil =>
      rw [unwrapped?] at h
      split at h
      next he =>
        obtain ⟨rfl, rfl⟩ := List.append_eq_nil_iff.1 he
        cases h
        exact ⟨rfl, nofun⟩
      next p he =>
        obtain ⟨hb, rfl⟩ := by simpa using h
        constructor
        · have hparts : evaluateEach score shards s must ++ evaluateEach score shards s should =
              [p.evaluate score shards s] := by
            rw [evaluateEach_eq_map, evaluateEach_eq_map, ← List.map_append, he]
            rfl
          rw [Binary.eq_one_of_eq hb]
          exact (combine_singleton hparts).symm
        · intro hm
          have hany : (must ++ should).any (meetsOversized score shards s) := by
            rw [he]
            simpa using hm
          rw [List.any_append, ← meetsInAny_eq_any, ← meetsInAny_eq_any] at hany
          rw [meetsOversized, hany, Bool.true_or]
      next => cases h

theorem Replaces.runAll (rules : List Rule) (p : Plan) :
    Replaces score shards s (runAll rules p) p := by
  induction rules generalizing p with
  | nil => exact .refl p
  | cons rule rest ih =>
    have hrule : Replaces score shards s ((rule.run? p).getD p) p := by
      cases hr : rule.run? p with
      | none => exact .refl p
      | some q =>
        cases rule with
        | prune => exact .pruned hr
        | unwrap => exact .unwrapped hr
    exact (ih _).trans hrule

mutual

theorem replaces_simplifyBy (rules : List Rule) :
    ∀ p : Plan, Replaces score shards s (simplifyBy rules p) p
  | .nothing => .runAll rules .nothing
  | .leaf criterion boost => .runAll rules (.leaf criterion boost)
  | .bool must should mustNot boost =>
    (Replaces.runAll ..).trans (.bool (replaces_simplifyEachBy rules must)
      (replaces_simplifyEachBy rules should) (replaces_simplifyEachBy rules mustNot) boost)

theorem replaces_simplifyEachBy (rules : List Rule) :
    ∀ ps : List Plan, List.Forall₂ (Replaces score shards s) (simplifyEachBy rules ps) ps
  | [] => .nil
  | p :: ps => .cons (replaces_simplifyBy rules p) (replaces_simplifyEachBy rules ps)

end

/-- Simplified by any rules in any order a plan matches the same documents with the same scores. -/
theorem run_simplifyBy (rules : List Rule) {p : Plan} {scored : Scored}
    (h : p.run score shards s = .ok scored) :
    (simplifyBy rules p).run score shards s = .ok scored := by
  have hr : Replaces score shards s (simplifyBy rules p) p := replaces_simplifyBy rules p
  rw [run] at h ⊢
  split at h
  next => cases h
  next hf =>
    rw [if_neg, hr.evaluate]
    · exact h
    · rw [Bool.and_eq_true]
      intro ⟨_, hm⟩
      have hp := hr.meets hm
      exact hf (by rw [hp, hasOversized_of_meets p hp]; rfl)

def padded : Plan :=
  .bool [.bool [] [.leaf (.term "x" "a") 1, .nothing] [.nothing] 1] [.nothing]
    [.leaf (.term "x" "b") 1, .nothing] 1

def twoWords : Segment :=
  (Segment.empty.upsert ⟨"1", 0, [("x", .text [⟨"a", 0, 0, 1⟩])]⟩).upsert
    ⟨"2", 0, [("x", .text [⟨"a", 0, 0, 1⟩, ⟨"b", 1, 2, 1⟩])]⟩

theorem run_simplifyBy_padded : ∃ scored : Scored, scored.docs = .ofList [0] ∧
    padded.run (fun p _ _ => .ofNat p.fieldLength) [twoWords] twoWords = .ok scored ∧
    (simplifyBy [.unwrap, .prune, .unwrap] padded).run (fun p _ _ => .ofNat p.fieldLength) [twoWords]
      twoWords = .ok scored := by
  have h : (padded.run (fun p _ _ => .ofNat p.fieldLength) [twoWords] twoWords).toOption.any
      fun scored => scored.docs = .ofList [0] := by decide +kernel
  cases hp : padded.run (fun p _ _ => .ofNat p.fieldLength) [twoWords] twoWords with
  | error e => rw [hp] at h; cases h
  | ok scored =>
    rw [hp] at h
    exact ⟨scored, of_decide_eq_true h, rfl, run_simplifyBy _ hp⟩

end Plan

end Corpus
