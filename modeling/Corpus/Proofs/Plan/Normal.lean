import Corpus.Proofs.Plan.Simplify

/-! Plans in normal form.  Simplifying leads there in one pass from the leaves up, and changes nothing
that is there already. -/

namespace Corpus.Plan

open Number

inductive Within (q : Plan) : Plan → Prop
  | whole : Within q q
  | part {p : Plan} {must should mustNot : List Plan} {boost : Binary32}
    (hp : p ∈ must ++ (should ++ mustNot)) (h : Within q p) :
    Within q (.bool must should mustNot boost)

/-- No part matches nothing, none is without parts, and none only wraps another one. -/
structure Normal (p : Plan) : Prop where
  nothing : Within .nothing p → p = .nothing
  parts {boost : Binary32} : ¬Within (.bool [] [] [] boost) p
  single {must should : List Plan} : Within (.bool must should [] 1) p → (must ++ should).length ≠ 1

theorem normal_nothing : Normal .nothing where
  nothing _ := rfl
  parts := nofun
  single := nofun

theorem normal_leaf (criterion : Criterion) (boost : Binary32) : Normal (.leaf criterion boost) where
  nothing := nofun
  parts := nofun
  single := nofun

theorem normal_bool_iff {must should mustNot : List Plan} {boost : Binary32} :
    Normal (.bool must should mustNot boost) ↔
      (∀ p ∈ must ++ (should ++ mustNot), p.Normal ∧ p ≠ .nothing) ∧
        must ++ (should ++ mustNot) ≠ [] ∧
        (mustNot = [] → boost = 1 → (must ++ should).length ≠ 1) := by
  constructor
  · intro h
    refine ⟨fun p hp => ⟨⟨fun hq => ?_, fun hq => h.parts (.part hp hq), fun hq => h.single (.part hp hq)⟩,
      fun he => ?_⟩, fun he => ?_, fun hn hb => ?_⟩
    · cases h.nothing (.part hp hq)
    · subst he
      cases h.nothing (.part hp .whole)
    · simp only [List.append_eq_nil_iff] at he
      obtain ⟨rfl, rfl, rfl⟩ := he
      exact h.parts .whole
    · subst hn hb
      exact h.single .whole
  · intro ⟨hparts, hne, hsingle⟩
    constructor
    · intro hq
      cases hq with
      | part hp hq => exact absurd ((hparts _ hp).1.nothing hq) (hparts _ hp).2
    · intro _ hq
      cases hq with
      | whole => exact hne rfl
      | part hp hq => exact (hparts _ hp).1.parts hq
    · intro _ _ hq
      cases hq with
      | whole => exact hsingle rfl rfl
      | part hp hq => exact (hparts _ hp).1.single hq

theorem isNothing_eq_false_iff {p : Plan} : p.isNothing = false ↔ p ≠ .nothing := by
  cases p <;> simp [isNothing]

theorem mem_kept {ps : List Plan} {p : Plan} : p ∈ kept ps ↔ p ∈ ps ∧ p ≠ .nothing := by
  rw [kept, List.mem_filter, Bool.not_eq_true', isNothing_eq_false_iff]

theorem any_isNothing_eq_false_iff {ps : List Plan} :
    ps.any isNothing = false ↔ ∀ p ∈ ps, p ≠ .nothing := by
  simp [isNothing_eq_false_iff]

theorem kept_eq_self {ps : List Plan} (h : ps.any isNothing = false) : kept ps = ps :=
  List.filter_eq_self.2 fun p hp => by simpa using List.any_eq_false.1 h p hp

theorem getD_pruned? (must should mustNot : List Plan) (boost : Binary32) :
    let p := Plan.bool must should mustNot boost
    p.pruned?.getD p = .nothing ∨ (∀ q ∈ must, q ≠ .nothing) ∧
      p.pruned?.getD p = .bool must (kept should) (kept mustNot) boost := by
  dsimp only
  rw [pruned?]
  split
  next => exact .inl rfl
  next hm =>
    have hm := any_isNothing_eq_false_iff.1 (Bool.not_eq_true _ ▸ hm)
    split
    next hk =>
      rw [Bool.and_eq_true, Bool.not_eq_true', Bool.not_eq_true'] at hk
      refine .inr ⟨hm, ?_⟩
      rw [kept_eq_self hk.1, kept_eq_self hk.2]
      rfl
    next =>
      dsimp only
      split
      next => exact .inl rfl
      next => exact .inr ⟨hm, rfl⟩

theorem normal_getD_unwrapped? {must should mustNot : List Plan} (boost : Binary32)
    (h : ∀ p ∈ must ++ (should ++ mustNot), p.Normal ∧ p ≠ .nothing) :
    let p := Plan.bool must should mustNot boost
    (p.unwrapped?.getD p).Normal := by
  dsimp only
  cases mustNot with
  | cons q rest => exact normal_bool_iff.2 ⟨h, by simp, nofun⟩
  | nil =>
    rw [List.append_nil] at h
    rw [unwrapped?]
    split
    next => exact normal_leaf ..
    next p hp =>
      split
      next => exact (h p (hp ▸ .head _)).1
      next hb =>
        refine normal_bool_iff.2 ⟨by rwa [List.append_nil], by simp [hp], fun _ hone => ?_⟩
        subst hone
        exact absurd (by decide) hb
    next hnil hsingle =>
      refine normal_bool_iff.2 ⟨by rwa [List.append_nil], by rwa [List.append_nil], fun _ _ hone => ?_⟩
      obtain ⟨p, hp⟩ := List.length_eq_one_iff.1 hone
      exact hsingle p hp

theorem normal_runAll {must should mustNot : List Plan} (boost : Binary32)
    (h : ∀ p ∈ must ++ (should ++ mustNot), p.Normal) :
    (runAll [.prune, .unwrap] (.bool must should mustNot boost)).Normal := by
  let p := Plan.bool must should mustNot boost
  change ((p.pruned?.getD p).unwrapped?.getD (p.pruned?.getD p)).Normal
  obtain hn | ⟨hm, hk⟩ := getD_pruned? must should mustNot boost
  · rw [hn]
    exact normal_nothing
  -- the parts are in normal form already, and one pass over the whole is enough
  · rw [hk]
    refine normal_getD_unwrapped? boost fun p hp => ?_
    rw [List.mem_append, List.mem_append, mem_kept, mem_kept] at hp
    rw [List.forall_mem_append, List.forall_mem_append] at h
    rcases hp with hp | ⟨hp, hne⟩ | ⟨hp, hne⟩
    · exact ⟨h.1 p hp, hm p hp⟩
    · exact ⟨h.2.1 p hp, hne⟩
    · exact ⟨h.2.2 p hp, hne⟩

mutual

theorem normal_simplify : ∀ p : Plan, (simplify p).Normal
  | .nothing => normal_nothing
  | .leaf criterion boost => normal_leaf criterion boost
  | .bool must should mustNot boost => by
    refine normal_runAll boost fun p hp => ?_
    rw [List.mem_append, List.mem_append] at hp
    rcases hp with hp | hp | hp
    · exact normal_simplifyEachBy must p hp
    · exact normal_simplifyEachBy should p hp
    · exact normal_simplifyEachBy mustNot p hp

theorem normal_simplifyEachBy :
    ∀ ps : List Plan, ∀ p ∈ simplifyEachBy [.prune, .unwrap] ps, p.Normal
  | [] => nofun
  | p :: ps => List.forall_mem_cons.2 ⟨normal_simplify p, normal_simplifyEachBy ps⟩

end

theorem runAll_of_normal {must should mustNot : List Plan} {boost : Binary32}
    (h : Normal (.bool must should mustNot boost)) :
    runAll [.prune, .unwrap] (.bool must should mustNot boost) = .bool must should mustNot boost := by
  obtain ⟨hparts, hne, hsingle⟩ := normal_bool_iff.1 h
  have hsome {ps : List Plan} (hps : ps ⊆ must ++ (should ++ mustNot)) : ps.any isNothing = false :=
    any_isNothing_eq_false_iff.2 fun p hp => (hparts p (hps hp)).2
  have hprune : pruned? (.bool must should mustNot boost) = none := by
    rw [pruned?, hsome (by simp), hsome (by simp), hsome (by simp)]
    rfl
  have hunwrap : unwrapped? (.bool must should mustNot boost) = none := by
    cases mustNot with
    | cons p rest => rfl
    | nil =>
      rw [unwrapped?]
      split
      next hnil => exact absurd (by rwa [List.append_nil]) hne
      next p hp =>
        refine if_neg fun hb => hsingle rfl (Binary.eq_one_of_eq hb) ?_
        rw [hp, List.length_singleton]
      next => rfl
  simp only [runAll, List.foldl_cons, List.foldl_nil, Rule.run?, hprune, hunwrap, Option.getD_none]

mutual

theorem simplify_of_normal : ∀ {p : Plan}, p.Normal → simplify p = p
  | .nothing, _ => rfl
  | .leaf _ _, _ => rfl
  | .bool must should mustNot boost, h => by
    have hparts := (normal_bool_iff.1 h).1
    rw [simplify, simplifyBy, simplifyEachBy_of_normal fun p hp => (hparts p (by simp [hp])).1,
      simplifyEachBy_of_normal fun p hp => (hparts p (by simp [hp])).1,
      simplifyEachBy_of_normal fun p hp => (hparts p (by simp [hp])).1, runAll_of_normal h]

theorem simplifyEachBy_of_normal :
    ∀ {ps : List Plan}, (∀ p ∈ ps, p.Normal) → simplifyEachBy [.prune, .unwrap] ps = ps
  | [], _ => rfl
  | p :: ps, h => by
    rw [List.forall_mem_cons] at h
    exact congrArg₂ List.cons (simplify_of_normal h.1) (simplifyEachBy_of_normal h.2)

end

theorem simplify_normalizes (p : Plan) :
    (simplify p).Normal ∧ simplify (simplify p) = simplify p :=
  ⟨normal_simplify p, simplify_of_normal (normal_simplify p)⟩

/-- The other order of the rules may leave a whole with a single part. -/
example (p : Criterion) : simplifyBy [.unwrap, .prune] (.bool [] [.leaf p 1, .nothing] [] 1) =
    .bool [] [.leaf p 1] [] 1 := rfl

end Corpus.Plan
