import Corpus.Query.Parser
import Mathlib.Data.List.TakeWhile

/-! The readers of queries by what they answer, without the bounds that make them end. -/

namespace Corpus.Query

open Text

inductive Outcome (α : Type u)
  | value (a : α) (rest : List Char)
  | miss
  | fault (place : List Char)

namespace Outcome

variable {α : Type u} {β : Type v}

def map (f : α → β) : Outcome α → Outcome β
  | .value a rest => .value (f a) rest
  | .miss => .miss
  | .fault place => .fault place

def andThen (o : Outcome α) (f : α → List Char → Outcome β) : Outcome β :=
  match o with
  | .value a rest => f a rest
  | .miss => .miss
  | .fault place => .fault place

def followed (o : Outcome α) (e : List Char) : Outcome α :=
  match o with
  | .value a rest => .value a (rest ++ e)
  | .miss => .miss
  | .fault place => .fault (place ++ e)

def elim (o : Outcome α) (other : Outcome β) (f : α → List Char → Outcome β) : Outcome β :=
  match o with
  | .value a rest => f a rest
  | .miss => other
  | .fault place => .fault place

end Outcome

namespace Reply

variable {α β : Type} {n m : Nat}

def outcome : Reply α n → Outcome α
  | .ok a rest _ => .value a rest
  | .miss => .miss
  | .fault place => .fault place

theorem outcome_lift (h : n ≤ m) (f : α → β) (r : Reply α n) :
    (r.lift h f).outcome = r.outcome.map f := by
  cases r <;> rfl

theorem outcome_bind {r : Reply α n} {f : α → (rest : List Char) → rest.length < n → Reply β m}
    {g : α → List Char → Outcome β} (h : ∀ a rest hr, (f a rest hr).outcome = g a rest) :
    (r.bind f).outcome = r.outcome.andThen g := by
  cases r with
  | ok a rest hr => exact h a rest hr
  | miss => rfl
  | fault place => rfl

end Reply

theorem disjunction_outcome (d : String) (s : List Char) :
    (disjunction d s).outcome = (conjunction d s).outcome.andThen fun c rest =>
      (alternatives d rest).outcome.map fun cs => Clause.combine (c :: cs) := by
  rw [disjunction]
  exact Reply.outcome_bind fun c rest hr => Reply.outcome_lift ..

theorem alternatives_outcome (d : String) (s : List Char) :
    (alternatives d s).outcome =
      (conjunction d (skipOr (skipSpace s))).outcome.elim (.value [] s) fun c rest =>
        (alternatives d rest).outcome.map (c :: ·) := by
  rw [alternatives]
  cases conjunction d (skipOr (skipSpace s)) with
  | ok c rest h => exact Reply.outcome_lift ..
  | miss => rfl
  | fault place => rfl

theorem conjunction_outcome (d : String) (s : List Char) :
    (conjunction d s).outcome = (clause d s).outcome.andThen fun c rest =>
      (conjuncts d rest).outcome.map fun cs => Clause.chain (c :: cs) := by
  rw [conjunction]
  exact Reply.outcome_bind fun c rest hr => Reply.outcome_lift ..

theorem conjuncts_outcome (d : String) (s : List Char) :
    (conjuncts d s).outcome =
      match skipAnd? (skipSpace s) with
      | none => .value [] s
      | some t =>
        (clause d t).outcome.elim (.value [] s) fun c rest =>
          (conjuncts d rest).outcome.map (c :: ·) := by
  rw [conjuncts]
  split
  next h => rw [h]; rfl
  next t h =>
    cases hc : clause d t with
    | ok c rest hr => exact (Reply.outcome_lift ..).trans (by simp only [h, hc]; rfl)
    | miss => exact (show Outcome.value [] s = _ by simp only [h, hc]; rfl)
    | fault place => exact (show Outcome.fault place = _ by simp only [h, hc]; rfl)

theorem clause_outcome (d : String) (s : List Char) :
    (clause d s).outcome = (signed d (skipSpace s)).outcome.elim
      ((factor d (skipSpace s)).outcome.map fun q => ⟨.should, q⟩) .value := by
  rw [clause]
  cases signed d (skipSpace s) with
  | ok c rest h => rfl
  | miss => exact Reply.outcome_lift ..
  | fault place => rfl

theorem signed_outcome (d : String) (s : List Char) :
    (signed d s).outcome =
      match keyword? "NOT" s, strip? ['+'] s, strip? ['-'] s with
      | some t, _, _ => (clause d t).outcome.map fun c => ⟨.mustNot, c.query⟩
      | none, some t, _ => (factor d t).outcome.map fun q => ⟨.must, q⟩
      | none, none, some t => (factor d t).outcome.map fun q => ⟨.mustNot, q⟩
      | none, none, none => .miss := by
  rw [signed]
  split
  next t h => exact (Reply.outcome_lift ..).trans (by rw [h])
  next h =>
    rw [h]
    split
    next t hp => exact (Reply.outcome_lift ..).trans (by rw [hp])
    next hp =>
      rw [hp]
      split
      next t hm => exact (Reply.outcome_lift ..).trans (by rw [hm])
      next hm => rw [hm]; rfl

theorem factor_outcome (d : String) (s : List Char) :
    (factor d s).outcome = (primary d s).outcome.andThen fun q rest =>
      (boost? rest).outcome.map fun b => b.elim q q.boosted := by
  rw [factor]
  exact Reply.outcome_bind fun q rest hr => Reply.outcome_lift ..

theorem primary_outcome (d : String) (s : List Char) :
    (primary d s).outcome =
      match strip? ['('] s, strip? ['*', ':', '*'] s, simple? d s with
      | some t, _, _ => (disjunction d (skipSpace t)).outcome.andThen fun q rest =>
        match strip? [')'] (skipSpace rest) with
        | some u => .value q u
        | none => .miss
      | none, some t, _ => .value .matchAll t
      | none, none, some (q, rest) => .value q rest
      | none, none, none => .miss := by
  rw [primary]
  split
  next t h =>
    refine (Reply.outcome_bind (g := fun q rest =>
      match strip? [')'] (skipSpace rest) with
      | some u => .value q u
      | none => .miss) fun q rest hr => ?_).trans (by rw [h])
    split
    next u hu => exact (show Outcome.value q u = _ by rw [hu])
    next hu => exact (show Outcome.miss = _ by rw [hu])
  next h =>
    rw [h]
    split
    next t ha => exact (show Outcome.value Query.matchAll t = _ by rw [ha])
    next ha =>
      rw [ha]
      split
      next q rest hs => exact (show Outcome.value q rest = _ by rw [hs])
      next hs => exact (show Outcome.miss = _ by rw [hs])

theorem parse_eq (d text : String) :
    parse d text =
      if trim text.toList = [] then .ok .matchAll
      else
        match (disjunction d (skipSpace text.toList)).outcome with
        | .value q rest =>
          if skipSpace rest = [] then .ok q
          else .error (.badQuery text (String.ofList (skipSpace rest)))
        | .miss => .error (.badQuery text (String.ofList (skipSpace text.toList)))
        | .fault place => .error (.badQuery text (String.ofList place)) := by
  simp only [parse]
  split
  next => rfl
  next => cases disjunction d (skipSpace text.toList) <;> rfl

section

variable {d : String} {s rest : List Char} {q : Query} {c e : Clause}

theorem takeWhile_append_eq {p : Char → Bool} {word : List Char} (hw : ∀ c ∈ word, p c)
    (hs : s.head?.any p = false) : (word ++ s).takeWhile p = word := by
  rw [List.takeWhile_append_of_pos hw]
  cases s with
  | nil => exact List.append_nil word
  | cons c s =>
    have hc : p c = false := hs
    rw [List.takeWhile_cons_of_neg (Bool.eq_false_iff.1 hc), List.append_nil]

theorem dropWhile_append_eq {p : Char → Bool} {word : List Char} (hw : ∀ c ∈ word, p c)
    (hs : s.head?.any p = false) : (word ++ s).dropWhile p = s := by
  have h := List.takeWhile_append_dropWhile (p := p) (l := word ++ s)
  rw [takeWhile_append_eq hw hs] at h
  exact List.append_cancel_left h

theorem word?_append {colons : Bool} {word : List Char} (hw : ∀ c ∈ word, isWordChar colons c)
    (hne : word ≠ []) (ho : ¬ isOperator word) (hs : ¬ s.head?.any (isWordChar colons)) :
    word? colons (word ++ s) = some (ofWord word, s) := by
  have hs := Bool.eq_false_iff.2 hs
  rw [word?]
  simp only [takeWhile_append_eq hw hs, dropWhile_append_eq hw hs]
  exact if_neg fun h => h.elim hne ho

theorem clause_plus (h : (factor d s).outcome = .value q rest) :
    (clause d ('+' :: s)).outcome = .value ⟨.must, q⟩ rest := by
  have hs : (signed d ('+' :: s)).outcome = (factor d s).outcome.map fun q => ⟨.must, q⟩ := by
    rw [signed_outcome]
    rfl
  rw [clause_outcome, show skipSpace ('+' :: s) = '+' :: s from rfl, hs, h]
  rfl

theorem clause_minus (h : (factor d s).outcome = .value q rest) :
    (clause d ('-' :: s)).outcome = .value ⟨.mustNot, q⟩ rest := by
  have hs : (signed d ('-' :: s)).outcome = (factor d s).outcome.map fun q => ⟨.mustNot, q⟩ := by
    rw [signed_outcome]
    rfl
  rw [clause_outcome, show skipSpace ('-' :: s) = '-' :: s from rfl, hs, h]
  rfl

theorem conjunction_of_clause (h : (clause d s).outcome = .value c rest)
    (hr : skipAnd? (skipSpace rest) = none) : (conjunction d s).outcome = .value c rest := by
  rw [conjunction_outcome, h, Outcome.andThen, conjuncts_outcome, hr]
  rfl

theorem alternatives_of_miss (h : (conjunction d (skipOr (skipSpace s))).outcome = .miss) :
    (alternatives d s).outcome = .value [] s := by
  rw [alternatives_outcome, h]
  rfl

theorem disjunction_pair {t : List Char} (hc : (conjunction d s).outcome = .value c t)
    (he : (conjunction d (skipOr (skipSpace t))).outcome = .value e rest)
    (hr : (conjunction d (skipOr (skipSpace rest))).outcome = .miss) :
    (disjunction d s).outcome = .value (Clause.combine [c, e]) rest := by
  rw [disjunction_outcome, hc, Outcome.andThen, alternatives_outcome, he, Outcome.elim,
    alternatives_of_miss hr]
  rfl

theorem factor_parenthesis (h : (disjunction d (skipSpace s)).outcome = .value q [')']) :
    (factor d ('(' :: s)).outcome = .value q [] := by
  rw [factor_outcome, primary_outcome, show strip? ['('] ('(' :: s) = some s from rfl]
  simp only [h, Outcome.andThen]
  rfl

theorem conjunction_nil : (conjunction d []).outcome = .miss := by
  rw [conjunction_outcome, clause_outcome, show skipSpace [] = [] from rfl, signed_outcome,
    factor_outcome, primary_outcome]
  rfl

theorem conjunction_close : (conjunction d (')' :: s)).outcome = .miss := by
  rw [conjunction_outcome, clause_outcome, show skipSpace (')' :: s) = ')' :: s from rfl,
    signed_outcome, factor_outcome, primary_outcome]
  rfl

theorem trim_ne_nil {c : Char} (hc : isBlank c = false) : trim (c :: s) ≠ [] := by
  intro h
  rw [trim, trimStart, List.dropWhile_cons, hc, trimEnd, if_neg Bool.false_ne_true,
    List.reverse_eq_nil_iff, List.dropWhile_eq_nil_iff] at h
  exact Bool.false_ne_true (hc.symm.trans (h c (List.mem_reverse.2 (.head _))))

end

end Corpus.Query
