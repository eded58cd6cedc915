import Corpus.Analysis.Analyzer
import Mathlib.Data.List.Chain

/-! The tokens of a text come in the order of their positions, whatever the filters leave of them, and one
after the other where no filter drops any. -/

namespace Corpus

def Ascending (tokens : List Token) : Prop := tokens.Pairwise fun t u => t.position < u.position

namespace Ascending

variable {tokens : List Token}

theorem map (h : Ascending tokens) {f : Token → Token} (hf : ∀ t, (f t).position = t.position) :
    Ascending (tokens.map f) := by
  refine List.pairwise_map.2 (h.imp fun htu => ?_)
  rwa [hf, hf]

theorem le_of_mem {t u : Token} (h : Ascending (t :: tokens)) (hu : u ∈ t :: tokens) :
    t.position ≤ u.position := by
  cases hu with
  | head => exact Nat.le_refl _
  | tail _ hu => exact Nat.le_of_lt (List.rel_of_pairwise_cons h hu)

end Ascending

namespace Tokenizer

theorem ascending_wordTokens (maxBytes position offset : Nat) (pieces : List (List Char)) :
    Ascending (wordTokens maxBytes position offset pieces) ∧
      ∀ t ∈ wordTokens maxBytes position offset pieces, position ≤ t.position := by
  induction pieces generalizing position offset with
  | nil => exact ⟨.nil, nofun⟩
  | cons piece rest ih =>
    rw [wordTokens]
    split
    next =>
      have ⟨hrest, hle⟩ := ih (position + 1) (offset + byteSize piece)
      refine ⟨List.pairwise_cons.2 ⟨hle, hrest⟩, List.forall_mem_cons.2 ⟨Nat.le_refl _, ?_⟩⟩
      exact fun t ht => Nat.le_of_succ_le (hle t ht)
    next => exact ih position (offset + byteSize piece)

theorem ascending_tokens (t : Tokenizer) (text : String) : Ascending (t.tokens text) := by
  cases t with
  | words maxBytes => exact (ascending_wordTokens ..).1
  | keyword =>
    rw [tokens, keywordTokens]
    split
    next => exact .nil
    next => exact List.pairwise_singleton ..

end Tokenizer

abbrev Stemmer := String → String

def Filter.applyBy (stem : Stemmer) : Filter → List Token → List Token
  | .stemmer, ts => ts.map fun t => withText t (stem t.text)
  | f, ts => f.apply ts

theorem Filter.apply_eq_applyBy (f : Filter) (ts : List Token) : f.apply ts = f.applyBy Text.Stem.english ts := by
  cases f <;> rfl

theorem Ascending.applyBy {tokens : List Token} (h : Ascending tokens) (stem : Stemmer) (f : Filter) :
    Ascending (f.applyBy stem tokens) := by
  cases f with
  | lowercase =>
    refine h.map fun t => ?_
    rw [Filter.lowerToken]
    split <;> rfl
  | stopWords words => exact h.sublist List.filter_sublist
  | stemmer => exact h.map fun _ => rfl

/-- What filters leave of the tokens of a text, where each has the stems of a language of its own. -/
def Tokenizer.filtered (t : Tokenizer) (filters : List (Filter × Stemmer)) (text : String) : List Token :=
  filters.foldl (fun ts f => f.1.applyBy f.2 ts) (t.tokens text)

theorem Tokenizer.ascending_filtered (t : Tokenizer) (filters : List (Filter × Stemmer)) (text : String) :
    Ascending (t.filtered filters text) := by
  have hfold {tokens : List Token} (h : Ascending tokens) :
      Ascending (filters.foldl (fun ts f => f.1.applyBy f.2 ts) tokens) := by
    induction filters generalizing tokens with
    | nil => exact h
    | cons f rest ih => exact ih (h.applyBy f.2 f.1)
  exact hfold (t.ascending_tokens text)

namespace Analyzer

def stemming (a : Analyzer) : List (Filter × Stemmer) := a.filters.map (·, Text.Stem.english)

theorem analyze_eq_filtered (a : Analyzer) (text : String) :
    a.analyze text = a.tokenizer.filtered a.stemming text := by
  rw [analyze, Tokenizer.filtered, stemming, List.foldl_map]
  simp only [Filter.apply_eq_applyBy]

theorem ascending_analyze (a : Analyzer) (text : String) : Ascending (a.analyze text) :=
  a.analyze_eq_filtered text ▸ a.tokenizer.ascending_filtered a.stemming text

end Analyzer

def Unbroken (tokens : List Token) : Prop := tokens.IsChain fun t u => u.position = t.position + 1

instance (tokens : List Token) : Decidable (Unbroken tokens) :=
  inferInstanceAs (Decidable (List.IsChain _ tokens))

namespace Tokenizer

theorem unbroken_wordTokens (maxBytes position offset : Nat) (pieces : List (List Char)) :
    Unbroken (wordTokens maxBytes position offset pieces) ∧
      ∀ t ∈ (wordTokens maxBytes position offset pieces).head?, t.position = position := by
  induction pieces generalizing position offset with
  | nil => exact ⟨.nil, nofun⟩
  | cons piece rest ih =>
    rw [wordTokens]
    split
    next =>
      have ⟨hrest, hhead⟩ := ih (position + 1) (offset + byteSize piece)
      refine ⟨List.isChain_cons.2 ⟨hhead, hrest⟩, fun t ht => ?_⟩
      cases ht
      rfl
    next => exact ih position (offset + byteSize piece)

theorem unbroken_tokens (t : Tokenizer) (text : String) : Unbroken (t.tokens text) := by
  cases t with
  | words maxBytes => exact (unbroken_wordTokens ..).1
  | keyword =>
    rw [tokens, keywordTokens]
    split
    next => exact .nil
    next => exact .singleton _

end Tokenizer

theorem Unbroken.map {tokens : List Token} (h : Unbroken tokens) {f : Token → Token}
    (hf : ∀ t, (f t).position = t.position) : Unbroken (tokens.map f) :=
  List.isChain_map_of_isChain f (fun t u htu => by rwa [hf, hf]) h

theorem Analyzer.unbroken_analyze {a : Analyzer} (ha : ∀ words, .stopWords words ∉ a.filters)
    (text : String) : Unbroken (a.analyze text) := by
  have hfold (filters : List Filter) (hkeeps : ∀ words, .stopWords words ∉ filters)
      {tokens : List Token} (h : Unbroken tokens) :
      Unbroken (filters.foldl (fun ts f => f.apply ts) tokens) := by
    induction filters generalizing tokens with
    | nil => exact h
    | cons f rest ih =>
      refine ih (fun words hw => hkeeps words (.tail _ hw)) ?_
      cases f with
      | lowercase =>
        refine h.map fun t => ?_
        rw [Filter.lowerToken]
        split <;> rfl
      | stopWords words => exact absurd (.head _) (hkeeps words)
      | stemmer => exact h.map fun _ => rfl
  exact hfold a.filters ha (a.tokenizer.unbroken_tokens text)

example : ¬Unbroken (Analyzer.standard.analyze "fox the dog") := by decide +kernel

end Corpus
