import Corpus.Proofs.Number.Rounding
import Corpus.Proofs.Search.Between
import Corpus.Proofs.Search.Recovery

/-! Searches for a range of times, with integers as bounds. -/

namespace Corpus

open Number

namespace Number

theorem exists_toString (n : Int) :
    ∃ c s, (toString n).toList = c :: s ∧ (isDigit c ∨ c = '-') := by
  obtain ⟨c, s, hs, hc⟩ := Decimal.exists_positional ⟨n.natAbs, 0⟩
  rw [Binary.toString_eq (f := .double), Binary.signed]
  split
  next => exact ⟨'-', c :: s, by rw [String.toList_append, hs]; rfl, .inr rfl⟩
  next => exact ⟨c, s, hs, .inl hc⟩

theorem mem_toString {n : Int} {c : Char} (h : c ∈ (toString n).toList) :
    isDigit c ∨ c = '.' ∨ c = '-' := by
  rw [Binary.toString_eq (f := .double), Binary.signed] at h
  have hbody (h : c ∈ (Decimal.positional ⟨n.natAbs, 0⟩).toList) : isDigit c ∨ c = '.' ∨ c = '-' :=
    (Decimal.isDigit_of_mem_positional h).imp_right .inl
  split at h
  next =>
    rw [String.toList_append, List.mem_append] at h
    exact h.elim (fun h => .inr (.inr (List.mem_singleton.1 h))) hbody
  next => exact hbody h

end Number

theorem Query.isBoundChar_of_isDigit {c : Char} (h : isDigit c) : isBoundChar c := by
  rw [isBoundChar, isBlank_of_isDigit h, Bool.false_or, Bool.not_eq_true', List.contains_eq_mem,
    decide_eq_false_iff_not]
  simp only [List.mem_cons, List.not_mem_nil, or_false]
  rintro (rfl | rfl | rfl | rfl) <;> cases h

theorem Pattern.isBound_toString (n : Int) : IsBound (some (toString n)) := by
  intro text htext
  cases htext
  obtain ⟨c, s, hs, hc⟩ := exists_toString n
  refine ⟨fun he => ?_, fun he => ?_, fun c hmem => ?_⟩
  · rw [he] at hs
    cases hs
  · rw [he] at hs
    cases hs
    revert hc
    decide
  · obtain h | rfl | rfl := mem_toString hmem
    · exact Query.isBoundChar_of_isDigit h
    · decide
    · decide

def timesQuery (a b : Int) : String :=
  "_timestamp:[" ++ toString a ++ " TO " ++ toString b ++ "\x7d"

theorem timesQuery_eq (a b : Int) :
    timesQuery a b =
      (Pattern.range (some (toString a)) (some (toString b)) true false).ask timestampField := by
  apply String.toList_inj.1
  rw [Pattern.ask, String.toList_ofList]
  simp [timesQuery, Pattern.write, Pattern.writeBound, timestampField]

namespace Plan

def times (a b : Int) : Plan :=
  .leaf (.numbers timestampField (.included (.ofInt a)) (.excluded (.ofInt b))) 1

variable {a b : Int}

theorem ofSearch_times (schema : Schema) (analyzers : Analyzers) (ha : a.natAbs < 10 ^ 19)
    (hb : b.natAbs < 10 ^ 19) : ofSearch schema analyzers (timesQuery a b) = .ok (times a b) := by
  have hparse := @Query.parse_ask allField timestampField
    (.range (some (toString a)) (some (toString b)) true false) (by decide +kernel)
    ⟨Pattern.isBound_toString a, Pattern.isBound_toString b⟩
  rw [timesQuery_eq]
  refine ofSearch_eq_ok.2 ⟨_, hparse, times a b, ?_, rfl⟩
  have hindexing : schema.indexing timestampField = .number := rfl
  change ofRange schema timestampField (some (toString a)) (some (toString b)) true false 1 = _
  rw [ofRange, hindexing]
  dsimp only
  rw [bound, bound, number, number, (number?_toString ha).1, (number?_toString hb).1]
  rfl

theorem isSome_times {score : Scorer} {st : Statistics} {fields : Fields} {t : Int}
    (ha : a.natAbs < 10 ^ 19) (h : fields.held timestampField = [.number (.ofInt t)]) :
    ((times a b).score? score st fields).isSome ↔
      (Binary.ofInt a : Binary64).le (.ofInt t) ∧ (Binary.ofInt t : Binary64).lt (.ofInt b) := by
  have hnumbers : fields.numbers timestampField = [.ofInt t] := by
    rw [Fields.numbers, Fields.read_eq_filterMap_held, h]
    rfl
  have hnan := Binary.isNaN_ofInt (f := .double) t
  refine isSome_numbers.trans ?_
  rw [hnumbers]
  simp only [List.mem_singleton, exists_eq_left, hnan, true_and]
  exact and_congr (Bound.least_le_sortKey (b := .included _) (number?_toString ha).2 hnan)
    (Bound.sortKey_lt_limit (b := .excluded _) (Binary.isNaN_ofInt b) hnan)

end Plan

end Corpus
