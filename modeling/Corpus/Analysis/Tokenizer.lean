import Corpus.Text.Blank
import Corpus.Text.Word

/-! Tokens, the units of text that are indexed and looked up, and cutting text into them: at word boundaries,
or not at all. -/

namespace Corpus

open Text

/-- `offset` and `length` count bytes, `position` counts the tokens of the value before this one. -/
structure Token where
  text : String
  position : Nat
  offset : Nat
  length : Nat
  deriving DecidableEq

def Token.of (text : String) (position offset : Nat) : Token :=
  ⟨text, position, offset, text.utf8ByteSize⟩

inductive Tokenizer
  | words (maxBytes : Nat)
  | keyword
  deriving DecidableEq

namespace Tokenizer

def standard : Tokenizer := .words 255

def name : Tokenizer → String
  | .words _ => "standard"
  | .keyword => "keyword"

def byteSize (s : List Char) : Nat := (String.ofList s).utf8ByteSize

/-- Words that are too long take up no position. -/
def wordTokens (maxBytes position offset : Nat) : List (List Char) → List Token
  | [] => []
  | piece :: rest =>
    let next := offset + byteSize piece
    if Word.hasAlphanumeric piece && byteSize piece ≤ maxBytes then
      Token.of (String.ofList piece) position offset :: wordTokens maxBytes (position + 1) next rest
    else wordTokens maxBytes position next rest

def keywordTokens (s : List Char) : List Token :=
  if trim s = [] then []
  else [Token.of (String.ofList (trim s)) 0 (byteSize (s.takeWhile isBlank))]

def tokens (t : Tokenizer) (text : String) : List Token :=
  match t with
  | .words maxBytes => wordTokens maxBytes 0 0 (Word.pieces text.toList)
  | .keyword => keywordTokens text.toList

end Tokenizer

end Corpus
