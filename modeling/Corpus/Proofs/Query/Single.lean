import Corpus.Proofs.Query.RoundTrip

/-! A query that asks one field for one pattern, by itself and beside another query, and a phrase that names no
field. -/

namespace Corpus

open Number Text

def Pattern.ask (pattern : Pattern) (name : String) : String :=
  String.ofList (name.toList ++ ':' :: pattern.write)

namespace Query

variable {d name : String} {pattern : Pattern}

theorem write_ask (name : String) (pattern : Pattern) (decimal : Binary32 → String) :
    write decimal (field name pattern none) = (pattern.ask name).toList := by
  rw [write, writeBoost, Option.elim_none, List.append_nil, Pattern.ask, String.toList_ofList]

section

variable (hn : IsName name) (hp : pattern.WellFormed d name)

include hn hp

theorem wellFormed_ask : (field name pattern none).WellFormed d Binary.text := .field hn hp nofun

theorem unsigned_ask : Unsigned (pattern.ask name).toList := by
  have hopens := unsigned_write (wellFormed_ask hn hp) []
  rwa [List.append_nil, write_ask] at hopens

theorem clause_ask : (clause d (pattern.ask name).toList).outcome =
    .value ⟨.should, .field name pattern none⟩ [] := by
  have hfactor := factor_write (wellFormed_ask hn hp) (u := []) rfl
  rw [List.append_nil, write_ask] at hfactor
  exact ((unsigned_ask hn hp).clause d).trans (Outcome.map_eq_value.2 ⟨_, hfactor, rfl⟩)

theorem parse_ask : parse d (pattern.ask name) = .ok (.field name pattern none) := by
  obtain ⟨c, s, hs, hc⟩ := exists_head_write (wellFormed_ask hn hp)
  rw [write_ask] at hs
  have htrim : trim (pattern.ask name).toList ≠ [] := hs ▸ trim_ne_nil hc
  have hdisjunction :=
    disjunction_of_conjunction (conjunction_of_clause (clause_ask hn hp) rfl)
  rw [parse_eq, if_neg htrim, (unsigned_ask hn hp).space, hdisjunction]
  rfl

theorem parse_and_ask {text : String} {q : Query} (ht : trim text.toList ≠ [])
    (h : parse d text = .ok q) : parse d ("(" ++ text ++ ") AND " ++ pattern.ask name) =
      .ok (.bool [q, .field name pattern none] [] [] none) := by
  have hfirst := clause_enclosed ht h (u := [' ', 'A', 'N', 'D', ' '] ++ (pattern.ask name).toList)
    (by simp)
  have hskip : skipAnd? (skipSpace ([' ', 'A', 'N', 'D', ' '] ++ (pattern.ask name).toList)) =
      some (pattern.ask name).toList :=
    congrArg some (unsigned_ask hn hp).space
  exact parse_of_disjunction (by simp) rfl rfl
    (disjunction_of_conjunction (conjunction_pair hfirst hskip (clause_ask hn hp)))

end

def quoted (text : String) : String := "\"" ++ text ++ "\""

theorem toList_quoted (text : String) : (quoted text).toList = '"' :: (text.toList ++ ['"']) := by
  simp [quoted]

theorem factor_quoted {text : String} (h : '"' ∉ text.toList) :
    (factor d ('"' :: (text.toList ++ ['"']))).outcome = .value (.field d (.phrase text) none) [] := by
  have hpattern : pattern? false ('"' :: (text.toList ++ ['"'])) = some (.phrase text, []) := by
    rw [pattern?_phrase h, String.ofList_toList]
  have hquery : ofPattern d d (.phrase text) = .field d (.phrase text) none := if_neg (nomatch ·.1)
  have hsimple : simple? d ('"' :: (text.toList ++ ['"'])) = some (.field d (.phrase text) none, []) := by
    have hfielded : fielded? d ('"' :: (text.toList ++ ['"'])) = none := rfl
    rw [simple?, hfielded, Option.none_or, hpattern, Option.map_some, ← hquery]
  rw [factor_outcome, primary_outcome, hsimple]
  rfl

theorem parse_quoted {text : String} (h : '"' ∉ text.toList) :
    parse d (quoted text) = .ok (.field d (.phrase text) none) := by
  have hunsigned : Unsigned ('"' :: (text.toList ++ ['"'])) := ⟨⟨rfl, rfl, rfl⟩, rfl, rfl, rfl⟩
  have hclause : (clause d ('"' :: (text.toList ++ ['"']))).outcome =
      .value ⟨.should, .field d (.phrase text) none⟩ [] :=
    (hunsigned.clause d).trans (Outcome.map_eq_value.2 ⟨_, factor_quoted h, rfl⟩)
  exact parse_of_disjunction (toList_quoted text) rfl rfl
    (disjunction_of_conjunction (conjunction_of_clause hclause rfl))

end Query

end Corpus
