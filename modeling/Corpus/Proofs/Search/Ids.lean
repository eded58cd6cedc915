import Corpus.Proofs.Index.Held
import Corpus.Proofs.Query.Single
import Corpus.Proofs.Search.Algebra
import Corpus.Proofs.Text.Blank

/-! Searches for an identity.  A document is found by what its field of identities holds, which is the
identity of its record as one word, and what a column of that name adds to it. -/

namespace Corpus

open Text

def idQuery (text : String) : String := "_id:\"" ++ text ++ "\""

theorem idQuery_eq (text : String) : idQuery text = (Pattern.phrase text).ask idField := by
  apply String.toList_inj.1
  rw [Pattern.ask, String.toList_ofList]
  simp [idQuery, Pattern.write, idField]

namespace Plan

def named (text : String) : Plan := .leaf (.term idField text) 1

theorem ofSearch_idQuery (schema : Schema) (analyzers : Analyzers) {text : String}
    (h : '"' ∉ text.toList) : ofSearch schema analyzers (idQuery text) = .ok (named text) := by
  have hparse := @Query.parse_ask allField idField (.phrase text) (by decide +kernel) h
  rw [idQuery_eq]
  exact ofSearch_eq_ok.2 ⟨_, hparse, named text, rfl, rfl⟩

theorem isSome_named {score : Scorer} {st : Statistics} {fields : Fields} {text : String} :
    ((named text).score? score st fields).isSome ↔ text ∈ fields.words idField := by
  change (Option.map _ _).isSome ↔ _
  rw [Option.isSome_map, Fields.isSome_posting?]

end Plan

theorem Analyzer.exists_mem_keyword {text word : String} :
    (∃ t ∈ keyword.analyze text, t.text = word) ↔ word ≠ "" ∧ trimmed text = word := by
  change (∃ t ∈ Tokenizer.keywordTokens text.toList, t.text = word) ↔ _
  rw [Tokenizer.keywordTokens]
  have hempty : trimmed text = "" ↔ trim text.toList = [] := by
    rw [trimmed, ← String.toList_inj, String.toList_ofList]
    rfl
  split
  next h =>
    simp only [List.not_mem_nil, false_and, exists_false, false_iff, not_and]
    intro hw he
    exact hw (he ▸ hempty.2 h)
  next h =>
    simp only [List.mem_singleton, exists_eq_left]
    constructor
    · rintro rfl
      exact ⟨fun he => h (hempty.1 he), rfl⟩
    · exact fun he => he.2

/-- Whether a record can be found by a text as its identity: it is its identity without the white space
around it, or a word of its column of that name. -/
def Record.GoesBy (schema : Schema) (analyzers : Analyzers) (r : Record) (text : String) : Prop :=
  (text ≠ "" ∧ trimmed r.id = text) ∨
    ∃ value tokens, r.values.get? idField = some value ∧
      Document.indexed? schema analyzers idField value = .ok (some (.text tokens)) ∧
      ∃ t ∈ tokens, t.text = text

theorem Record.goesBy_iff {schema : Schema} {analyzers : Analyzers} {r : Record} {text : String}
    (hb : Bare r.id.toList) (hid : r.id ≠ "") (hv : r.values.get? idField = none) :
    r.GoesBy schema analyzers text ↔ r.id = text := by
  have htrim : trimmed r.id = r.id := by rw [trimmed, trim_of_bare hb, String.ofList_toList]
  rw [Record.GoesBy, hv, htrim]
  simp only [reduceCtorEq, false_and, exists_false, or_false]
  exact and_iff_right_of_imp fun he => he ▸ hid

namespace Document

variable {schema : Schema} {analyzers : Analyzers} {r : Record} {d : Document} {text : String}

theorem mem_words_iff (h : ofRecord schema analyzers r = .ok d) (hk : analyzers.keyword = .keyword) :
    text ∈ Fields.words d.fields idField ↔ r.GoesBy schema analyzers text := by
  obtain ⟨column, hheld, hcolumn⟩ := ofRecord_held_id h
  have hwords : text ∈ Fields.words d.fields idField ↔
      ∃ tokens, .text tokens ∈ Fields.held d.fields idField ∧ ∃ t ∈ tokens, t.text = text := by
    simp only [Fields.mem_words, Fields.mem_held]
  rw [hwords, hheld, hk, Record.GoesBy, ← Analyzer.exists_mem_keyword]
  simp only [List.mem_cons, or_and_right, exists_or, Content.text.injEq, exists_eq_left]
  refine or_congr_right ?_
  cases hv : r.values.get? idField with
  | none =>
    rw [hv] at hcolumn
    simp [show column = [] from hcolumn]
  | some value =>
    rw [hv] at hcolumn
    obtain ⟨content?, hindexed, rfl⟩ := hcolumn
    cases content? with
    | none => simp [hindexed]
    | some content => simp [hindexed, eq_comm (b := content)]

end Document

end Corpus
