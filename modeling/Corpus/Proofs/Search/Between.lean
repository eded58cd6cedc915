import Corpus.Proofs.Index.Interval
import Corpus.Proofs.Query.Single
import Corpus.Proofs.Search.Finding

/-! Numbers between bounds, in the index and in a search for a number. -/

namespace Corpus

open Number

namespace Plan

theorem exists_run {p : Plan} (hp : p.hasOversized = false) {s : Segment} (hs : s.Faithful)
    (score : Scorer) (shards : Shards) : ∃ scored, p.run score shards s = .ok scored ∧
      ∀ doc, doc ∈ scored.docs ↔ ∃ d, s.docs.get? doc = some d ∧
        (p.score? score shards.statistics d.fields).isSome := by
  refine ⟨p.scan score shards.statistics s, ?_, fun doc => ?_⟩
  · rw [Replaces.run (.refl p) hp, evaluate_eq_scan hs]
  · rw [Dict.mem_docs, get?_scan, Option.isSome_bind, Option.any_eq_true]

def FindsHolders (field : String) (admits : Binary64 → Bool) (p : Plan) : Prop :=
  ∀ s : Segment, s.Reachable → ∀ (score : Scorer) (shards : Shards), ∃ scored,
    p.run score shards s = .ok scored ∧
      ∀ doc, doc ∈ scored.docs ↔
        ∃ d, s.docs.get? doc = some d ∧ ∃ y ∈ Fields.numbers d.fields field, admits y

section

variable {score : Scorer} {st : Statistics} {fields : Fields} {field : String} {boost : Binary32}

theorem isSome_numbers {lower upper : Bound} :
    ((Plan.leaf (.numbers field lower upper) boost).score? score st fields).isSome ↔
      ∃ y ∈ fields.numbers field, y.isNaN = false ∧ lower.least ≤ sortKey y ∧
        sortKey y < upper.limit := by
  change (Option.isSome (ite _ _ _)) = true ↔ _
  simp [Fields.keys]

variable {x : Binary64}

theorem isSome_equalTo_infinity (negative : Bool) :
    ((equalTo field (.infinity negative) boost).score? score st fields).isSome ↔
      ∃ y ∈ fields.numbers field, negative && !y.isNaN := by
  refine isSome_numbers.trans (exists_congr fun y => and_congr_right fun _ => ?_)
  cases hy : y.isNaN with
  | true => simp
  | false =>
    cases negative with
    -- no number has a key as large as that of an infinity that is included
    | false => simpa using fun hl => absurd hl (Nat.not_le.2 (Bound.sortKey_lt_least_infinity hy))
    | true => simpa using ⟨Nat.zero_le _, sortKey_lt_size hy⟩

theorem findsHolders_equalTo (field : String) (hx : x.isNaN = false) (boost : Binary32) :
    FindsHolders field (fun y => if x.isFinite then x.eq y else x.negative && !y.isNaN)
      (equalTo field x boost) := by
  intro s hs score shards
  obtain ⟨scored, hrun, hmem⟩ := exists_run (p := equalTo field x boost) rfl hs.faithful score shards
  refine ⟨scored, hrun, fun doc => (hmem doc).trans ?_⟩
  refine exists_congr fun d => and_congr_right fun _ => ?_
  cases hf : x.isFinite with
  | true => exact isSome_equalTo hf
  | false =>
    rw [Binary.eq_infinity hx hf]
    exact isSome_equalTo_infinity x.negative

end

variable {schema : Schema} {analyzers : Analyzers} {name text : String} {pattern : Pattern}
  {x : Binary64}

theorem ofSearch_number (hn : Query.IsName name) (hp : pattern.WellFormed allField name)
    (ht : pattern = .term text ∨ pattern = .phrase text) (hi : schema.indexing name = .number)
    (hx : number? text = some x) :
    ofSearch schema analyzers (pattern.ask name) = .ok (equalTo name x 1) := by
  have hvalue : ofValue schema analyzers name text 1 = .ok (equalTo name x 1) := by
    rw [ofValue, hi]
    dsimp only
    rw [number, hx]
    rfl
  refine ofSearch_eq_ok.2 ⟨_, Query.parse_ask hn hp, equalTo name x 1, ?_, rfl⟩
  obtain rfl | rfl := ht
  · exact hvalue
  · exact hvalue

end Plan

namespace NumberIndex

/-- A range holds the numbers between its bounds, unless infinity is included on the wrong side. -/
theorem range_exact (edits : List Edit) (field : String) {lower upper : Bound} (hl : lower.IsNumber)
    (hu : upper.IsNumber) :
    (edited edits).range? field lower upper = some ((edited edits).range field lower upper) ∧
    (lower ≠ .included (.infinity false) → upper ≠ .included (.infinity true) → ∀ doc,
      doc ∈ (edited edits).range field lower upper ↔
        ∃ v, ⟨doc, field, v⟩ ∈ held edits ∧ lower.Below v ∧ upper.Above v) ∧
    (lower = .included (.infinity false) → (edited edits).range field lower upper = .empty) ∧
    (upper = .included (.infinity true) →
      (edited edits).range field lower upper = (edited edits).range field lower .unbounded) ∧
    (∀ {x : Binary64}, x.isFinite → ∀ doc,
      doc ∈ (edited edits).equals field x ↔ ∃ v, ⟨doc, field, v⟩ ∈ held edits ∧ x.eq v) ∧
    ∀ {schema : Schema} {name text : String} {pattern : Pattern} {x : Binary64}
      (analyzers : Analyzers), Query.IsName name → pattern.WellFormed allField name →
      pattern = .term text ∨ pattern = .phrase text → schema.indexing name = .number →
      Plan.number? text = some x → x.isNaN = false → ∃ p,
        Plan.ofSearch schema analyzers (pattern.ask name) = .ok p ∧
        p.FindsHolders name fun y => if x.isFinite then x.eq y else x.negative && !y.isNaN := by
  have h := holds_edited edits
  refine ⟨h.range?_eq .., fun hlne hune doc => h.mem_range_iff hl hu hlne hune, ?_, ?_,
    fun hx doc => h.mem_equals hx, fun analyzers hn hp ht hi hx hnan => ?_⟩
  · rintro rfl
    exact h.range_of_infinity field upper
  · rintro rfl
    exact range_negInfinity (edited edits) field lower
  · exact ⟨_, Plan.ofSearch_number hn hp ht hi hx, Plan.findsHolders_equalTo _ hnan 1⟩

def mixedNumbers : List Edit :=
  [.add 1 "n" (.ofInt 3), .add 2 "n" (.infinity false), .add 3 "n" (.nan false), .add 1 "n" (.ofInt 7),
    .remove 1 "n" (.ofInt 3)]

theorem range_exact_fromFive :
    (Bound.included (.ofInt 5)).IsNumber ∧ (Bound.included (.infinity false)).IsNumber ∧
      (edited mixedNumbers).range? "n" (.included (.ofInt 5)) (.included (.infinity false)) =
        some (.ofList [1, 2]) ∧
      (2 ∈ (edited mixedNumbers).range "n" (.included (.ofInt 5)) (.included (.infinity false)) ↔
        ∃ v, ⟨2, "n", v⟩ ∈ held mixedNumbers ∧ (Bound.included (.ofInt 5)).Below v ∧
          (Bound.included (.infinity false)).Above v) ∧
      ∃ p, Plan.ofSearch .empty (.withDefault "standard") "_timestamp:\"7\"" = .ok p ∧
        p.FindsHolders timestampField ((Binary.ofInt 7).eq ·) := by
  have hl : (Bound.included (.ofInt 5)).IsNumber := by decide +kernel
  have hu : (Bound.included (.infinity false)).IsNumber := by decide
  obtain ⟨hrange, hmem, -, -, -, hsearch⟩ := range_exact mixedNumbers "n" hl hu
  have hdocs : (edited mixedNumbers).range "n" (.included (.ofInt 5)) (.included (.infinity false)) =
      .ofList [1, 2] := by decide +kernel
  have hquery := @hsearch .empty timestampField "7" (.phrase "7") (.ofInt 7) (.withDefault "standard")
    (by decide +kernel) (show '"' ∉ "7".toList by decide) (.inr rfl) rfl (by decide +kernel)
    (by decide +kernel)
  have hfinite : (Binary.ofInt 7 : Binary64).isFinite := by decide +kernel
  have htext : (Pattern.phrase "7").ask timestampField = "_timestamp:\"7\"" := by decide +kernel
  simp only [hfinite, if_true, htext] at hquery
  exact ⟨hl, hu, hrange.trans (congrArg some hdocs), hmem (by decide +kernel) (by decide +kernel) 2,
    hquery⟩

/-- The range from infinity to itself misses it, and that from minus infinity to itself has all numbers. -/
theorem equals_atInfinity :
    ⟨1, "n", .infinity false⟩ ∈ held [.add 1 "n" (.infinity false), .add 2 "n" (.ofInt 5)] ∧
      (Binary.infinity false : Binary64).eq (.infinity false) ∧
      (edited [.add 1 "n" (.infinity false), .add 2 "n" (.ofInt 5)]).equals "n" (.infinity false) =
        .empty ∧
      (∀ h ∈ held [.add 1 "n" (.infinity false), .add 2 "n" (.ofInt 5)],
        (Binary.infinity true).eq h.value = false) ∧
      (edited [.add 1 "n" (.infinity false), .add 2 "n" (.ofInt 5)]).equals "n" (.infinity true) =
        .ofList [1, 2] := by
  decide +kernel

end NumberIndex

end Corpus
