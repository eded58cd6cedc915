import Corpus.Number.Numeral
import Corpus.Query.Basic
import Corpus.Text.Glob
import Corpus.Text.Letter
import Corpus.Text.Blank
import Corpus.Text.Reading

/-! Reading single patterns: quoted phrases, ranges, and words with or without wild characters. -/

namespace Corpus.Query

open Text Number

def isTermChar (c : Char) : Bool :=
  !(isBlank c || ['(', ')', '"', '[', ']', '\x7b', '\x7d', '^', ':'].contains c)

def isFieldChar (c : Char) : Bool := isAlphanumeric c || c = '_' || c = '.'

def isBoundChar (c : Char) : Bool := !(isBlank c || ['[', ']', '\x7b', '\x7d'].contains c)

def isOperator (word : List Char) : Bool :=
  ["AND", "OR", "NOT", "&&", "||"].any (·.toList = word)

def keyword? (word : String) (s : List Char) : Option (List Char) :=
  (strip? word.toList s).filter fun rest => !rest.head?.any isTermChar

def skipSomeSpace? : List Char → Option (List Char)
  | [] => none
  | c :: s => if isSpace c then some (skipSpace s) else none

def boundText? (s : List Char) : Option (List Char × List Char) :=
  match s.takeWhile isBoundChar with
  | [] => none
  | text => some (text, s.dropWhile isBoundChar)

def bound (text : List Char) : Option String :=
  if text = ['*'] then none else some (String.ofList text)

def range? (includeLower : Bool) (s : List Char) : Option (Pattern × List Char) := do
  let (lower, s) ← boundText? (skipSpace s)
  let s ← skipSomeSpace? s
  let s ← strip? ['T', 'O'] s
  let s ← skipSomeSpace? s
  let (upper, s) ← boundText? s
  match skipSpace s with
  | ']' :: rest => return (.range (bound lower) (bound upper) includeLower true, rest)
  | '\x7d' :: rest => return (.range (bound lower) (bound upper) includeLower false, rest)
  | _ => none

/-- A word asks for itself, for all words that it starts if its only wild character is a star at
its end, or for the words of its shape. -/
def ofWord (word : List Char) : Pattern :=
  match word.dropWhile (! isWild ·) with
  | [] => .term (String.ofList word)
  | ['*'] => .prefixed (String.ofList (literalPart word))
  | _ => .wildcard (String.ofList word)

def isWordChar (colons : Bool) (c : Char) : Bool := isTermChar c || colons && c = ':'

def word? (colons : Bool) (s : List Char) : Option (Pattern × List Char) :=
  let word := s.takeWhile (isWordChar colons)
  if word = [] ∨ isOperator word then none
  else some (ofWord word, s.dropWhile (isWordChar colons))

def pattern? (colons : Bool) : List Char → Option (Pattern × List Char)
  | '"' :: s =>
    match s.dropWhile (· ≠ '"') with
    | [] => none
    | _ :: rest => some (.phrase (String.ofList (s.takeWhile (· ≠ '"'))), rest)
  | '[' :: s => range? true s
  | '\x7b' :: s => range? false s
  | s => word? colons s

/-- A star alone matches everything when it is asked of the default field. -/
def ofPattern (defaultField field : String) (pattern : Pattern) : Query :=
  if pattern = .prefixed "" ∧ field = defaultField then .matchAll else .field field pattern none

theorem length_lt_of_keyword? {word : String} {s rest : List Char} (hw : word ≠ "")
    (h : keyword? word s = some rest) : rest.length < s.length := by
  have := length_add_of_strip? (Option.filter_eq_some_iff.1 h).1
  have := List.length_pos_iff.2 (mt String.toList_eq_nil_iff.1 hw)
  omega

theorem length_le_of_skipSomeSpace? {s rest : List Char} (h : skipSomeSpace? s = some rest) :
    rest.length ≤ s.length := by
  cases s with
  | nil => simp [skipSomeSpace?] at h
  | cons c s =>
    rw [skipSomeSpace?] at h
    split at h
    · obtain rfl := Option.some.inj h
      exact Nat.le_succ_of_le (length_skipSpace_le s)
    · simp at h

theorem length_le_of_boundText? {s rest text : List Char} (h : boundText? s = some (text, rest)) :
    rest.length ≤ s.length := by
  rw [boundText?] at h
  split at h
  · simp at h
  · obtain ⟨⟩ := h
    exact length_dropWhile_le isBoundChar s

theorem length_lt_of_range? {includeLower : Bool} {s rest : List Char} {p : Pattern}
    (h : range? includeLower s = some (p, rest)) : rest.length < s.length := by
  simp only [range?, Option.bind_eq_bind, Option.bind_eq_some_iff] at h
  obtain ⟨⟨lower, s₀⟩, h₀, s₁, h₁, s₂, h₂, s₃, h₃, ⟨upper, s₄⟩, h₄, h⟩ := h
  have := length_skipSpace_le s
  have := length_le_of_boundText? h₀
  have := length_le_of_skipSomeSpace? h₁
  have := length_add_of_strip? h₂
  have := length_le_of_skipSomeSpace? h₃
  have := length_le_of_boundText? h₄
  have := length_skipSpace_le s₄
  split at h
  all_goals grind

theorem length_lt_of_word? {colons : Bool} {s rest : List Char} {p : Pattern}
    (h : word? colons s = some (p, rest)) : rest.length < s.length := by
  simp only [word?, Option.ite_none_left_eq_some, not_or, Option.some.injEq, Prod.mk.injEq] at h
  obtain ⟨⟨h, -⟩, -, rfl⟩ := h
  exact length_dropWhile_lt h

theorem length_lt_of_pattern? {colons : Bool} {s rest : List Char} {p : Pattern}
    (h : pattern? colons s = some (p, rest)) : rest.length < s.length := by
  rw [pattern?.eq_def] at h
  split at h
  next s =>
    have := length_dropWhile_le (· ≠ '"') s
    grind
  next s => exact Nat.lt_succ_of_lt (length_lt_of_range? h)
  next s => exact Nat.lt_succ_of_lt (length_lt_of_range? h)
  next => exact length_lt_of_word? h

end Corpus.Query
