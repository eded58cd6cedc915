import Corpus.Error
import Corpus.Query.Pattern

/-! Reading queries.  AND binds tighter than OR, and clauses side by side stand for OR.  Where one
reading of a text fails the next one is tried, except after a fault: an exponent without digits. -/

namespace Corpus.Query

open Text Number

/-- The answer of a reader on a text of `n` characters; it never gives back the whole text. -/
inductive Reply (α : Type u) (n : Nat)
  | ok (value : α) (rest : List Char) (shorter : rest.length < n)
  | miss
  | fault (place : List Char)

namespace Reply

variable {α β : Type} {n m : Nat}

def bind (r : Reply α n) (f : α → (rest : List Char) → rest.length < n → Reply β m) : Reply β m :=
  match r with
  | .ok a rest h => f a rest h
  | .miss => .miss
  | .fault place => .fault place

def lift (h : n ≤ m) (f : α → β) : Reply α n → Reply β m
  | .ok a rest hr => .ok (f a) rest (Nat.lt_of_lt_of_le hr h)
  | .miss => .miss
  | .fault place => .fault place

end Reply

def digitsEnd? (s : List Char) : Option (List Char) :=
  match s.takeWhile isDigit, s.dropWhile isDigit with
  | [], '.' :: t => if t.head?.any isDigit then some (t.dropWhile isDigit) else none
  | [], _ => none
  | _ :: _, '.' :: t => some (t.dropWhile isDigit)
  | _ :: _, t => some t

theorem length_le_of_digitsEnd? {s rest : List Char} (h : digitsEnd? s = some rest) :
    rest.length ≤ s.length := by
  have := length_dropWhile_le isDigit s
  have (t : List Char) := length_dropWhile_le isDigit t
  rw [digitsEnd?] at h
  split at h <;> grind

theorem length_readSign_le (s : List Char) : (readSign s).2.length ≤ s.length := by
  rw [readSign.eq_def]; split <;> simp

def isExponentMark (c : Char) : Bool := c = 'e' || c = 'E'

def dropExponent (s : List Char) : List Char := (readSign s).2.dropWhile isDigit

theorem length_dropExponent_le (s : List Char) : (dropExponent s).length ≤ s.length :=
  Nat.le_trans (length_dropWhile_le isDigit _) (length_readSign_le s)

def exponentEnd : (s : List Char) → Reply Unit (s.length + 1)
  | [] => .ok () [] (Nat.lt_add_one _)
  | c :: s =>
    if isExponentMark c then
      if (readSign s).2.head?.any isDigit then
        .ok () (dropExponent s) (Nat.lt_succ_of_le (Nat.le_succ_of_le (length_dropExponent_le s)))
      else .fault (readSign s).2
    else .ok () (c :: s) (Nat.lt_add_one _)

def boost? : (s : List Char) → Reply (Option Binary32) (s.length + 1)
  | '^' :: s =>
    match h : digitsEnd? (readSign s).2 with
    | none => .ok none ('^' :: s) (Nat.lt_add_one _)
    | some t => (exponentEnd t).bind fun _ rest hr =>
      .ok (Binary.ofText? (String.ofList (s.take (s.length - rest.length)))) rest (by
        have := length_le_of_digitsEnd? h
        have := length_readSign_le s
        grind)
  | s => .ok none s (Nat.lt_add_one _)

def fielded? (defaultField : String) (s : List Char) : Option (Query × List Char) :=
  match s.takeWhile isFieldChar, s.dropWhile isFieldChar with
  | c :: name, ':' :: t => (pattern? true t).map fun (p, rest) =>
    (ofPattern defaultField (String.ofList (c :: name)) p, rest)
  | _, _ => none

theorem length_lt_of_fielded? {defaultField : String} {s rest : List Char} {q : Query}
    (h : fielded? defaultField s = some (q, rest)) : rest.length < s.length := by
  rw [fielded?] at h
  split at h
  next c name t _ ht =>
    obtain ⟨⟨p, rest⟩, hp, ⟨⟩⟩ := Option.map_eq_some_iff.1 h
    have := length_lt_of_pattern? hp
    have := length_dropWhile_le isFieldChar s
    grind
  next => simp at h

def simple? (defaultField : String) (s : List Char) : Option (Query × List Char) :=
  (fielded? defaultField s).or
    ((pattern? false s).map fun (p, rest) => (ofPattern defaultField defaultField p, rest))

theorem length_lt_of_simple? {defaultField : String} {s rest : List Char} {q : Query}
    (h : simple? defaultField s = some (q, rest)) : rest.length < s.length := by
  rcases Option.or_eq_some_iff.1 h with h | ⟨-, h⟩
  · exact length_lt_of_fielded? h
  · obtain ⟨⟨p, rest⟩, hp, ⟨⟩⟩ := Option.map_eq_some_iff.1 h
    exact length_lt_of_pattern? hp

def skipOr (s : List Char) : List Char :=
  (((keyword? "OR" s).or (strip? ['|', '|'] s)).map skipSpace).getD s

def skipAnd? (s : List Char) : Option (List Char) :=
  ((keyword? "AND" s).or (strip? ['&', '&'] s)).map skipSpace

theorem length_skipOr_le (s : List Char) : (skipOr s).length ≤ s.length := by
  rw [skipOr]
  rcases h : ((keyword? "OR" s).or (strip? ['|', '|'] s)).map skipSpace with _ | t
  · simp
  · obtain ⟨u, hu, rfl⟩ := Option.map_eq_some_iff.1 h
    refine Nat.le_trans (length_skipSpace_le u) ?_
    rcases Option.or_eq_some_iff.1 hu with hu | ⟨-, hu⟩
    · exact Nat.le_of_lt (length_lt_of_keyword? (by decide) hu)
    · have := length_add_of_strip? hu
      omega

theorem length_lt_of_skipAnd? {s t : List Char} (h : skipAnd? s = some t) :
    t.length < s.length := by
  obtain ⟨u, hu, rfl⟩ := Option.map_eq_some_iff.1 h
  refine Nat.lt_of_le_of_lt (length_skipSpace_le u) ?_
  rcases Option.or_eq_some_iff.1 hu with hu | ⟨-, hu⟩
  · exact length_lt_of_keyword? (by decide) hu
  · have := length_add_of_strip? hu
    simp at this
    omega

mutual

def disjunction (d : String) (s : List Char) : Reply Query s.length :=
  (conjunction d s).bind fun c rest h =>
    (alternatives d rest).lift h fun cs => Clause.combine (c :: cs)
termination_by 6 * s.length + 5

def alternatives (d : String) (s : List Char) : Reply (List Clause) (s.length + 1) :=
  have hs : (skipOr (skipSpace s)).length ≤ s.length :=
    Nat.le_trans (length_skipOr_le _) (length_skipSpace_le s)
  match conjunction d (skipOr (skipSpace s)) with
  | .ok c rest h => (alternatives d rest).lift (by omega) (c :: ·)
  | .miss => .ok [] s (Nat.lt_add_one _)
  | .fault place => .fault place
termination_by 6 * s.length + 5

def conjunction (d : String) (s : List Char) : Reply Clause s.length :=
  (clause d s).bind fun c rest h => (conjuncts d rest).lift h fun cs => Clause.chain (c :: cs)
termination_by 6 * s.length + 4

def conjuncts (d : String) (s : List Char) : Reply (List Clause) (s.length + 1) :=
  have hs := length_skipSpace_le s
  match h : skipAnd? (skipSpace s) with
  | none => .ok [] s (Nat.lt_add_one _)
  | some t =>
    have ht := length_lt_of_skipAnd? h
    match clause d t with
    | .ok c rest hr => (conjuncts d rest).lift (by omega) (c :: ·)
    | .miss => .ok [] s (Nat.lt_add_one _)
    | .fault place => .fault place
termination_by 6 * s.length + 4

def clause (d : String) (s : List Char) : Reply Clause s.length :=
  have hs := length_skipSpace_le s
  match signed d (skipSpace s) with
  | .miss => (factor d (skipSpace s)).lift hs fun q => ⟨.should, q⟩
  | reply => reply.lift hs id
termination_by 6 * s.length + 3

def signed (d : String) (s : List Char) : Reply Clause s.length :=
  match h : keyword? "NOT" s with
  | some t =>
    have ht := length_lt_of_keyword? (by decide) h
    (clause d t).lift (Nat.le_of_lt ht) fun c => ⟨.mustNot, c.query⟩
  | none =>
    match h : strip? ['+'] s with
    | some t =>
      have ht := length_lt_of_strip? (List.cons_ne_nil _ _) h
      (factor d t).lift (Nat.le_of_lt ht) fun q => ⟨.must, q⟩
    | none =>
      match h : strip? ['-'] s with
      | some t =>
        have ht := length_lt_of_strip? (List.cons_ne_nil _ _) h
        (factor d t).lift (Nat.le_of_lt ht) fun q => ⟨.mustNot, q⟩
      | none => .miss
termination_by 6 * s.length + 2

def factor (d : String) (s : List Char) : Reply Query s.length :=
  (primary d s).bind fun q rest h => (boost? rest).lift h fun b => b.elim q q.boosted
termination_by 6 * s.length + 1

def primary (d : String) (s : List Char) : Reply Query s.length :=
  match h : strip? ['('] s with
  | some t =>
    have ht := length_lt_of_strip? (List.cons_ne_nil _ _) h
    have hs := length_skipSpace_le t
    (disjunction d (skipSpace t)).bind fun q rest hr =>
      match h : strip? [')'] (skipSpace rest) with
      | some u =>
        have hu := length_lt_of_strip? (List.cons_ne_nil _ _) h
        have hrest := length_skipSpace_le rest
        .ok q u (by omega)
      | none => .miss
  | none =>
    match h : strip? ['*', ':', '*'] s with
    | some t => .ok .matchAll t (length_lt_of_strip? (List.cons_ne_nil _ _) h)
    | none =>
      match h : simple? d s with
      | some (q, rest) => .ok q rest (length_lt_of_simple? h)
      | none => .miss
termination_by 6 * s.length + 0

end

/-- The query that a text stands for; a blank one asks for everything. -/
def parse (defaultField text : String) : Except Error Query :=
  let s := skipSpace text.toList
  if trim text.toList = [] then .ok .matchAll
  else
    let unexpected (place : List Char) := .error (.badQuery text (String.ofList place))
    match disjunction defaultField s with
    | .ok q rest _ => if skipSpace rest = [] then .ok q else unexpected (skipSpace rest)
    | .miss => unexpected s
    | .fault place => unexpected place

end Corpus.Query
