import Corpus.Proofs.Search.Window

/-! Where evaluation comes upon an oversized pattern.  Unless it stands in a prohibited part of a
prohibited part, this depends on the documents of all segments together and not on which segment has
which. -/

namespace Corpus.Plan

open Number

mutual

def oversizedWithin (depth : Nat) : Plan → Bool
  | .nothing => false
  | .leaf (.wildcard _ glob) _ => depth = 0 && Text.isOversized glob.toList
  | .leaf _ _ => false
  | .bool must should mustNot _ =>
    anyOversizedWithin depth must || anyOversizedWithin depth should ||
      anyOversizedWithin (depth - 1) mustNot

def anyOversizedWithin (depth : Nat) : List Plan → Bool
  | [] => false
  | p :: ps => oversizedWithin depth p || anyOversizedWithin depth ps

end

mutual

def exposesOversized : Plan → Bool
  | .nothing => false
  | .leaf (.wildcard _ glob) _ => Text.isOversized glob.toList
  | .leaf _ _ => false
  | .bool must should _ _ => anyExposesOversized must || anyExposesOversized should

def anyExposesOversized : List Plan → Bool
  | [] => false
  | p :: ps => exposesOversized p || anyExposesOversized ps

end

section

variable (score : Scorer) (st : Statistics) (fields : Fields)

/-- Whether a document is left among the prohibited parts when one with an oversized pattern comes. -/
def leftAtOversized : List Plan → Bool
  | [] => false
  | p :: ps => p.hasOversized || ((p.score? score st fields).isNone && leftAtOversized ps)

mutual

def trips : Plan → Bool
  | .nothing | .leaf _ _ => false
  | .bool must should mustNot _ =>
    anyTrips must || anyTrips should ||
      (admits (scoreEach? score st fields must) (scoreEach? score st fields should) [] &&
        leftAtOversized score st fields mustNot)

def anyTrips : List Plan → Bool
  | [] => false
  | p :: ps => trips p || anyTrips ps

end

end

mutual

theorem oversizedWithin_zero : ∀ p : Plan, p.oversizedWithin 0 = p.hasOversized
  | .nothing => rfl
  | .leaf criterion boost => by cases criterion <;> simp [oversizedWithin, hasOversized]
  | .bool must should mustNot boost => by
    simp only [oversizedWithin, hasOversized, anyOversizedWithin_zero must,
      anyOversizedWithin_zero should, anyOversizedWithin_zero mustNot, Nat.zero_sub]

theorem anyOversizedWithin_zero : ∀ ps : List Plan, anyOversizedWithin 0 ps = anyOversized ps
  | [] => rfl
  | p :: ps => by
    rw [anyOversizedWithin, anyOversized, oversizedWithin_zero p, anyOversizedWithin_zero ps]

end

variable {score : Scorer} {shards : Shards} {s : Segment}

mutual

theorem hasOversized_of_meets : ∀ p : Plan, p.meetsOversized score shards s → p.hasOversized
  | .nothing, h => by simp [meetsOversized] at h
  | .leaf criterion boost, h => by
    cases criterion <;> simp only [meetsOversized, hasOversized, Bool.false_eq_true] at h ⊢
    exact h
  | .bool must should mustNot boost, h => by
    simp only [meetsOversized, hasOversized, Bool.or_eq_true] at h ⊢
    rcases h with (h | h) | h
    · exact .inl (.inl (anyOversized_of_meetsInAny must h))
    · exact .inl (.inr (anyOversized_of_meetsInAny should h))
    · exact .inr (anyOversized_of_meetsWhileLeft mustNot _ h)

theorem anyOversized_of_meetsInAny : ∀ ps : List Plan, meetsInAny score shards s ps → anyOversized ps
  | [], h => by simp [meetsInAny] at h
  | p :: ps, h => by
    simp only [meetsInAny, anyOversized, Bool.or_eq_true] at h ⊢
    exact h.imp (hasOversized_of_meets p) (anyOversized_of_meetsInAny ps)

theorem anyOversized_of_meetsWhileLeft : ∀ (ps : List Plan) (docs : DocSet),
    meetsWhileLeft score shards s docs ps → anyOversized ps
  | [], docs, h => by simp [meetsWhileLeft] at h
  | p :: ps, docs, h => by
    simp only [meetsWhileLeft, anyOversized, Bool.and_eq_true, Bool.or_eq_true] at h ⊢
    exact h.2.imp (hasOversized_of_meets p) (anyOversized_of_meetsWhileLeft ps _)

end

theorem meetsWhileLeft_eq_false {ps : List Plan} (h : anyOversized ps = false) (docs : DocSet) :
    meetsWhileLeft score shards s docs ps = false :=
  Bool.eq_false_iff.2 fun hm =>
    Bool.false_ne_true (h.symm.trans (anyOversized_of_meetsWhileLeft ps docs hm))

mutual

theorem meetsOversized_eq : ∀ p : Plan, p.oversizedWithin 1 = false →
    p.meetsOversized score shards s = p.hasOversized
  | .nothing, _ => rfl
  | .leaf criterion boost, _ => by cases criterion <;> rfl
  | .bool must should mustNot boost, h => by
    simp only [oversizedWithin, Bool.or_eq_false_iff, Nat.sub_self, anyOversizedWithin_zero] at h
    obtain ⟨⟨hm, hs⟩, hn⟩ := h
    rw [meetsOversized, hasOversized, meetsInAny_eq must hm, meetsInAny_eq should hs,
      meetsWhileLeft_eq_false hn, hn]

theorem meetsInAny_eq : ∀ ps : List Plan, anyOversizedWithin 1 ps = false →
    meetsInAny score shards s ps = anyOversized ps
  | [], _ => rfl
  | p :: ps, h => by
    rw [anyOversizedWithin, Bool.or_eq_false_iff] at h
    rw [meetsInAny, anyOversized, meetsOversized_eq p h.1, meetsInAny_eq ps h.2]

end

theorem meetsWhileLeft_iff (hf : s.Faithful) {ps : List Plan}
    (hps : anyOversizedWithin 1 ps = false) {docs : DocSet} (hd : ∀ doc ∈ docs, doc ∈ s.live) :
    meetsWhileLeft score shards s docs ps ↔
      ∃ doc ∈ docs, ∃ d, s.docs.get? doc = some d ∧
        leftAtOversized score shards.statistics d.fields ps := by
  induction ps generalizing docs with
  | nil => simp [meetsWhileLeft, leftAtOversized]
  | cons p rest ih =>
    rw [anyOversizedWithin, Bool.or_eq_false_iff] at hps
    have hlive (doc : Nat) (h : doc ∈ docs) : ∃ d, s.docs.get? doc = some d :=
      Option.isSome_iff_exists.1 (Dict.mem_docs.1 (hd doc h))
    rw [meetsWhileLeft, meetsOversized_eq p hps.1, Bool.and_eq_true, DocSet.not_isEmpty_iff]
    cases ho : p.hasOversized with
    | true =>
      simp only [leftAtOversized, ho, Bool.true_or, and_true]
      constructor
      · rintro ⟨doc, hdoc⟩
        exact ⟨doc, hdoc, hlive doc hdoc⟩
      · rintro ⟨doc, hdoc, _⟩
        exact ⟨doc, hdoc⟩
    | false =>
      rw [Bool.false_or, evaluate_eq_scan hf,
        ih hps.2 fun doc h => hd doc (DocSet.mem_diff.1 h).1]
      simp only [leftAtOversized, ho, Bool.false_or, Bool.and_eq_true, DocSet.mem_diff, Dict.mem_docs,
        get?_scan, Option.not_isSome_iff_eq_none, Option.isNone_iff_eq_none]
      constructor
      · rintro ⟨_, doc, ⟨hdoc, hn⟩, d, hget, hl⟩
        rw [hget, Option.bind_some] at hn
        exact ⟨doc, hdoc, d, hget, hn, hl⟩
      · rintro ⟨doc, hdoc, d, hget, hn, hl⟩
        refine ⟨⟨doc, hdoc⟩, doc, ⟨hdoc, ?_⟩, d, hget, hl⟩
        rwa [hget, Option.bind_some]

theorem meetsWhileLeft_matched_iff (hf : s.Faithful) (must should : List Plan) {ps : List Plan}
    (hps : anyOversizedWithin 1 ps = false) :
    meetsWhileLeft score shards s
        (matched s.live (evaluateEach score shards s must) (evaluateEach score shards s should) []) ps ↔
      ∃ doc d, s.docs.get? doc = some d ∧
        admits (scoreEach? score shards.statistics d.fields must)
          (scoreEach? score shards.statistics d.fields should) [] ∧
        leftAtOversized score shards.statistics d.fields ps := by
  have hmem (doc : Nat) : doc ∈ matched s.live (evaluateEach score shards s must)
        (evaluateEach score shards s should) [] ↔
      ∃ d, s.docs.get? doc = some d ∧
        admits (scoreEach? score shards.statistics d.fields must)
          (scoreEach? score shards.statistics d.fields should) [] :=
    mem_matched_evaluateEach hf must should []
  rw [meetsWhileLeft_iff hf hps]
  · constructor
    · intro ⟨doc, hdoc, d, hd, hl⟩
      obtain ⟨d', hd', ha⟩ := (hmem doc).1 hdoc
      rw [hd] at hd'
      cases hd'
      exact ⟨doc, d, hd, ha, hl⟩
    · intro ⟨doc, d, hd, ha, hl⟩
      exact ⟨doc, (hmem doc).2 ⟨d, hd, ha⟩, d, hd, hl⟩
  · intro doc hdoc
    obtain ⟨d, hd, -⟩ := (hmem doc).1 hdoc
    simp [Segment.live, hd]

mutual

theorem meetsOversized_iff (hf : s.Faithful) : ∀ p : Plan, p.oversizedWithin 2 = false →
    (p.meetsOversized score shards s ↔ p.exposesOversized ∨
      ∃ doc d, s.docs.get? doc = some d ∧ p.trips score shards.statistics d.fields)
  | .nothing, _ => by simp [meetsOversized, exposesOversized, trips]
  | .leaf criterion boost, _ => by
    cases criterion <;> simp [meetsOversized, exposesOversized, trips]
  | .bool must should mustNot boost, h => by
    simp only [oversizedWithin, Bool.or_eq_false_iff] at h
    obtain ⟨⟨hm, hs⟩, hn⟩ := h
    simp only [meetsOversized, exposesOversized, trips, Bool.or_eq_true, Bool.and_eq_true,
      meetsInAny_iff hf must hm, meetsInAny_iff hf should hs,
      meetsWhileLeft_matched_iff hf must should hn, and_or_left, exists_or]
    simp only [or_assoc, or_left_comm]

theorem meetsInAny_iff (hf : s.Faithful) : ∀ ps : List Plan, anyOversizedWithin 2 ps = false →
    (meetsInAny score shards s ps ↔ anyExposesOversized ps ∨
      ∃ doc d, s.docs.get? doc = some d ∧ anyTrips score shards.statistics d.fields ps)
  | [], _ => by simp [meetsInAny, anyExposesOversized, anyTrips]
  | p :: ps, h => by
    rw [anyOversizedWithin, Bool.or_eq_false_iff] at h
    simp only [meetsInAny, anyExposesOversized, anyTrips, Bool.or_eq_true, meetsOversized_iff hf p h.1,
      meetsInAny_iff hf ps h.2, and_or_left, exists_or, or_or_or_comm]

end

theorem any_fails_iff {shards : Shards} (hne : shards ≠ []) (hf : ∀ s ∈ shards, s.Faithful) {p : Plan}
    (hp : p.oversizedWithin 2 = false) :
    shards.any (p.fails score shards) ↔ p.exposesOversized ∨
      ∃ d ∈ shards.documents, p.trips score shards.statistics d.fields := by
  have hfails (s : Segment) (hs : s ∈ shards) : p.fails score shards s ↔ p.exposesOversized ∨
      ∃ doc d, s.docs.get? doc = some d ∧ p.trips score shards.statistics d.fields := by
    rw [← meetsOversized_iff (hf s hs) p hp, fails, Bool.and_eq_true]
    exact and_iff_right_of_imp (hasOversized_of_meets p)
  simp only [List.any_eq_true, Shards.documents, List.mem_flatMap, Dict.mem_values_iff]
  constructor
  · rintro ⟨s, hs, h⟩
    refine ((hfails s hs).1 h).imp_right ?_
    rintro ⟨doc, d, hd, ht⟩
    exact ⟨d, ⟨s, hs, doc, hd⟩, ht⟩
  · intro h
    cases h with
    | inl he =>
      obtain ⟨s, hs⟩ := List.exists_mem_of_ne_nil shards hne
      exact ⟨s, hs, (hfails s hs).2 (.inl he)⟩
    | inr ht =>
      obtain ⟨d, ⟨s, hs, doc, hd⟩, ht⟩ := ht
      exact ⟨s, hs, (hfails s hs).2 (.inr ⟨doc, d, hd, ht⟩)⟩

end Corpus.Plan
