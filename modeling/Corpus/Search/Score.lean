import Corpus.Index.Shards

/-! Relevance: how much one occurrence of a term says about a document. -/

namespace Corpus

open Number

/-- A score from a posting, the number of documents that hold the term, and the field's mean. -/
abbrev Scorer := Posting → Nat → FieldMean → Binary32

/-- The BM25 score.  `k1` bounds what repetition adds, `b` is the weight of a value's length. -/
structure BM25 where
  k1 : Binary32
  b : Binary32
  deriving DecidableEq

namespace BM25

def name : String := "bm25"

def standard : BM25 := ⟨12 / 10, 3 / 4⟩

def idf (docFreq docs : Nat) : Binary32 :=
  let n : Binary32 := .ofNat (max docs docFreq)
  let df : Binary32 := .ofNat docFreq
  (1 + (n - df + 1 / 2) / (df + 1 / 2)).log

def score (s : BM25) : Scorer := fun posting docFreq mean =>
  let tf : Binary32 := .ofNat posting.termFreq
  let length : Binary32 := .ofNat posting.fieldLength
  idf docFreq mean.docs * tf * (s.k1 + 1) /
    (tf + s.k1 * (1 - s.b + s.b * (length / mean.meanLength.max 1)))

end BM25

end Corpus
