import Corpus.Analysis.Tokenizer
import Corpus.Text.Case
import Corpus.Text.Stem

/-! Filtering tokens.  No filter moves a token, so that the distances between tokens stay those of the
text. -/

namespace Corpus

open Text

inductive Filter
  | lowercase
  | stopWords (words : List String)
  | stemmer
  deriving DecidableEq

namespace Filter

def english : List String :=
  ["a", "an", "and", "are", "as", "at", "be", "but", "by", "for", "if", "in", "into", "is", "it",
   "no", "not", "of", "on", "or", "such", "that", "the", "their", "then", "there", "these", "they",
   "this", "to", "was", "will", "with"]

def name : Filter → String
  | .lowercase => "lowercase"
  | .stopWords _ => "stop_words"
  | .stemmer => "stemmer"

def withText (t : Token) (text : String) : Token :=
  { t with text, length := text.utf8ByteSize }

def lowerToken (t : Token) : Token :=
  if t.text.toList.any isUppercase then withText t (lowered t.text) else t

def apply : Filter → List Token → List Token
  | .lowercase, ts => ts.map lowerToken
  | .stopWords words, ts => ts.filter fun t => !words.contains t.text
  | .stemmer, ts => ts.map fun t => withText t (Stem.english t.text)

end Filter

end Corpus
