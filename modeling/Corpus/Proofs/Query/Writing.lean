import Corpus.Proofs.Number.Reading
import Corpus.Proofs.Query.Growth

/-! Queries written as text, and which of them are well formed.  A well-formed query is what its text is
read as. -/

namespace Corpus

open Text Number

inductive IsMantissa : List Char → Prop
  | whole {digits : List Char} (hne : digits ≠ []) (h : ∀ c ∈ digits, isDigit c) : IsMantissa digits
  | pointed {digits fraction : List Char} (hne : digits ≠ []) (h : ∀ c ∈ digits, isDigit c)
    (hf : ∀ c ∈ fraction, isDigit c) : IsMantissa (digits ++ '.' :: fraction)
  | fraction {fraction : List Char} (hne : fraction ≠ []) (hf : ∀ c ∈ fraction, isDigit c) :
    IsMantissa ('.' :: fraction)

def IsSign (s : List Char) : Prop := s = [] ∨ s = ['+'] ∨ s = ['-']

inductive IsExponent : List Char → Prop
  | none : IsExponent []
  | marked {c : Char} {sign digits : List Char} (hc : Query.isExponentMark c) (hs : IsSign sign)
    (hne : digits ≠ []) (h : ∀ c ∈ digits, isDigit c) : IsExponent (c :: (sign ++ digits))

inductive IsDecimal : List Char → Prop
  | mk {sign mantissa exponent : List Char} (hs : IsSign sign) (hm : IsMantissa mantissa)
    (he : IsExponent exponent) : IsDecimal (sign ++ (mantissa ++ exponent))

def Stands (b : Binary32) (text : String) : Prop :=
  IsDecimal text.toList ∧ Binary.ofText? text = some b

namespace Pattern

def writeBound (bound : Option String) : List Char := bound.elim ['*'] String.toList

def write : Pattern → List Char
  | .term value => value.toList
  | .phrase text => '"' :: (text.toList ++ ['"'])
  | .prefixed start => start.toList ++ ['*']
  | .wildcard glob => glob.toList
  | .range lower upper includeLower includeUpper =>
    (if includeLower then '[' else '\x7b') :: (writeBound lower ++ ' ' :: 'T' :: 'O' :: ' ' ::
      (writeBound upper ++ [if includeUpper then ']' else '\x7d']))

def IsRun (s : List Char) : Prop := ∀ c ∈ s, Query.isTermChar c ∨ c = ':'

instance (s : List Char) : Decidable (IsRun s) :=
  List.decidableBAll (fun c => Query.isTermChar c ∨ c = ':') s

def IsBound (bound : Option String) : Prop :=
  ∀ text ∈ bound, text ≠ "" ∧ text ≠ "*" ∧ ∀ c ∈ text.toList, Query.isBoundChar c

instance (bound : Option String) : Decidable (IsBound bound) :=
  have (text : String) : Decidable (∀ c ∈ text.toList, Query.isBoundChar c) := List.decidableBAll ..
  inferInstanceAs (Decidable (∀ text ∈ bound,
    text ≠ "" ∧ text ≠ "*" ∧ ∀ c ∈ text.toList, Query.isBoundChar c))

def WellFormed (d name : String) : Pattern → Prop
  | .term value => value ≠ "" ∧ IsRun value.toList ∧ (∀ c ∈ value.toList, isWild c = false) ∧
    value ∉ ["AND", "OR", "NOT", "&&", "||"]
  | .phrase text => '"' ∉ text.toList
  | .prefixed start => IsRun start.toList ∧ (∀ c ∈ start.toList, isWild c = false) ∧
    (start = "" → name ≠ d)
  | .wildcard glob => IsRun glob.toList ∧ (∃ c ∈ glob.toList, isWild c) ∧
    ∀ start, (∀ c ∈ start, isWild c = false) → glob.toList ≠ start ++ ['*']
  | .range lower upper _ _ => IsBound lower ∧ IsBound upper

end Pattern

def spaced : List (List Char) → List Char
  | [] => []
  | text :: texts => text ++ texts.flatMap (' ' :: ·)

namespace Query

def writeBoost (decimal : Binary32 → String) (boost : Option Binary32) : List Char :=
  boost.elim [] fun b => '^' :: (decimal b).toList

mutual

def write (decimal : Binary32 → String) : Query → List Char
  | .matchAll => ['*', ':', '*']
  | .field name pattern boost => name.toList ++ ':' :: (pattern.write ++ writeBoost decimal boost)
  | .bool must should mustNot boost =>
    '(' :: (spaced (writeEach decimal ['+'] must ++ (writeEach decimal [] should ++
      writeEach decimal ['-'] mustNot)) ++ ')' :: writeBoost decimal boost)

def writeEach (decimal : Binary32 → String) (sign : List Char) : List Query → List (List Char)
  | [] => []
  | q :: qs => (sign ++ write decimal q) :: writeEach decimal sign qs

end

def IsName (name : String) : Prop :=
  name ≠ "" ∧ (∀ c ∈ name.toList, isFieldChar c) ∧ name ∉ ["AND", "OR", "NOT"]

instance (name : String) : Decidable (IsName name) :=
  have : Decidable (∀ c ∈ name.toList, isFieldChar c) := List.decidableBAll ..
  inferInstanceAs (Decidable
    (name ≠ "" ∧ (∀ c ∈ name.toList, isFieldChar c) ∧ name ∉ ["AND", "OR", "NOT"]))

/-- The queries that have a text.  A clause that should match needs another one beside it. -/
inductive WellFormed (d : String) (decimal : Binary32 → String) : Query → Prop
  | matchAll : WellFormed d decimal .matchAll
  | field {name : String} {pattern : Pattern} {boost : Option Binary32} (hn : IsName name)
    (hp : pattern.WellFormed d name) (hb : ∀ b ∈ boost, Stands b (decimal b)) :
    WellFormed d decimal (.field name pattern boost)
  | bool {must should mustNot : List Query} {boost : Option Binary32}
    (h : ∀ q ∈ must ++ (should ++ mustNot), WellFormed d decimal q)
    (hne : must ++ (should ++ mustNot) ≠ []) (hs : must ++ mustNot = [] → should.length ≠ 1)
    (hb : ∀ b ∈ boost, Stands b (decimal b)) : WellFormed d decimal (.bool must should mustNot boost)

end Query

end Corpus
