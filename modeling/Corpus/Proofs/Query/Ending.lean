import Corpus.Proofs.Query.Writing
import Corpus.Record
import Mathlib.Data.List.Infix

/-! Readers without bounds, which call each other as long as they like.  What a reader calls for begins
later in the text, or is of a lower kind, so that reading ends. -/

namespace Corpus

namespace Text

variable {word s t : List Char}

theorem skipSpace_suffix (s : List Char) : skipSpace s <:+ s := List.dropWhile_suffix isSpace

theorem suffix_of_strip? (h : strip? word s = some t) : t <:+ s :=
  ⟨word, (strip?_eq_some_iff.1 h).symm⟩

end Text

namespace Query

open Text Number

variable {d : String} {s t rest : List Char}

namespace Outcome

variable {α : Type u} {β : Type v} {o : Outcome α} {P : α → List Char → Prop}
  {Q : β → List Char → Prop}

def Gives (P : α → List Char → Prop) : Outcome α → Prop
  | .value a rest => P a rest
  | .miss => True
  | .fault _ => True

theorem gives_iff : o.Gives P ↔ ∀ a rest, o = .value a rest → P a rest := by
  cases o <;> simp [Gives]

theorem Gives.map {f : α → β} (h : o.Gives fun a rest => Q (f a) rest) : (o.map f).Gives Q := by
  cases o <;> exact h

theorem Gives.imp {P' : α → List Char → Prop} (h : o.Gives P) (hi : ∀ a rest, P a rest → P' a rest) :
    o.Gives P' := by
  cases o with
  | value a rest => exact hi a rest h
  | miss => trivial
  | fault place => trivial

theorem gives_andThen {f : α → List Char → Outcome β}
    (h : ∀ a rest, o = .value a rest → (f a rest).Gives Q) : (o.andThen f).Gives Q := by
  cases o with
  | value a rest => exact h a rest rfl
  | miss => trivial
  | fault place => trivial

theorem gives_elim {other : Outcome β} {f : α → List Char → Outcome β} (hm : other.Gives Q)
    (h : ∀ a rest, o = .value a rest → (f a rest).Gives Q) : (o.elim other f).Gives Q := by
  cases o with
  | value a rest => exact h a rest rfl
  | miss => exact hm
  | fault place => trivial

theorem andThen_eq_elim (o : Outcome α) (f : α → List Char → Outcome β) :
    o.andThen f = o.elim .miss f := by
  cases o <;> rfl

end Outcome

open Outcome

section Suffix

theorem suffix_of_keyword? {word : String} (h : keyword? word s = some t) : t <:+ s :=
  suffix_of_strip? (Option.filter_eq_some_iff.1 h).1

theorem skipOr_suffix (s : List Char) : skipOr s <:+ s := by
  rw [skipOr]
  cases h : (keyword? "OR" s).or (strip? ['|', '|'] s) with
  | none => exact List.suffix_rfl
  | some t =>
    refine (skipSpace_suffix t).trans ?_
    rcases Option.or_eq_some_iff.1 h with h | ⟨-, h⟩
    · exact suffix_of_keyword? h
    · exact suffix_of_strip? h

theorem suffix_of_skipAnd? (h : skipAnd? s = some t) : t <:+ s := by
  obtain ⟨u, hu, rfl⟩ := Option.map_eq_some_iff.1 h
  refine (skipSpace_suffix u).trans ?_
  rcases Option.or_eq_some_iff.1 hu with hu | ⟨-, hu⟩
  · exact suffix_of_keyword? hu
  · exact suffix_of_strip? hu

theorem suffix_of_skipSomeSpace? (h : skipSomeSpace? s = some t) : t <:+ s := by
  cases s with
  | nil => cases h
  | cons c s =>
    rw [skipSomeSpace?] at h
    split at h
    next => cases h; exact (skipSpace_suffix s).trans (List.suffix_cons c s)
    next => cases h

theorem suffix_of_boundText? {text : List Char} (h : boundText? s = some (text, t)) : t <:+ s := by
  rw [boundText?] at h
  split at h
  next => cases h
  next => cases h; exact List.dropWhile_suffix _

theorem suffix_of_range? {includeLower : Bool} {p : Pattern}
    (h : range? includeLower s = some (p, t)) : t <:+ s := by
  simp only [range?, Option.bind_eq_bind, Option.bind_eq_some_iff] at h
  obtain ⟨⟨lower, s₀⟩, h₀, s₁, h₁, s₂, h₂, s₃, h₃, ⟨upper, s₄⟩, h₄, h⟩ := h
  have hlast : t <:+ s₄ := by
    dsimp only at h
    split at h
    next rest hs => cases h; exact (List.suffix_cons _ _).trans (hs ▸ skipSpace_suffix s₄)
    next rest hs => cases h; exact (List.suffix_cons _ _).trans (hs ▸ skipSpace_suffix s₄)
    next => cases h
  calc t <:+ s₄ := hlast
    _ <:+ s₃ := suffix_of_boundText? h₄
    _ <:+ s₂ := suffix_of_skipSomeSpace? h₃
    _ <:+ s₁ := suffix_of_strip? h₂
    _ <:+ s₀ := suffix_of_skipSomeSpace? h₁
    _ <:+ skipSpace s := suffix_of_boundText? h₀
    _ <:+ s := skipSpace_suffix s

theorem suffix_of_word? {colons : Bool} {p : Pattern} (h : word? colons s = some (p, t)) : t <:+ s := by
  simp only [word?, Option.ite_none_left_eq_some, Option.some.injEq, Prod.mk.injEq] at h
  exact h.2.2 ▸ List.dropWhile_suffix _

theorem suffix_of_pattern? {colons : Bool} {p : Pattern} (h : pattern? colons s = some (p, t)) :
    t <:+ s := by
  rw [pattern?.eq_def] at h
  split at h
  next s =>
    split at h
    next => cases h
    next c rest hs =>
      cases h
      calc t <:+ c :: t := List.suffix_cons c t
        _ <:+ s := hs ▸ List.dropWhile_suffix _
        _ <:+ '"' :: s := List.suffix_cons _ s
  next s => exact (suffix_of_range? h).trans (List.suffix_cons _ s)
  next s => exact (suffix_of_range? h).trans (List.suffix_cons _ s)
  next => exact suffix_of_word? h

theorem suffix_of_simple? {q : Query} (h : simple? d s = some (q, t)) : t <:+ s := by
  rcases Option.or_eq_some_iff.1 h with h | ⟨-, h⟩
  · rw [fielded?] at h
    split at h
    next c name u _ hu =>
      obtain ⟨⟨p, t⟩, hp, ⟨⟩⟩ := Option.map_eq_some_iff.1 h
      calc t <:+ u := suffix_of_pattern? hp
        _ <:+ ':' :: u := List.suffix_cons _ u
        _ <:+ s := hu ▸ List.dropWhile_suffix _
    next => cases h
  · obtain ⟨⟨p, rest⟩, hp, ⟨⟩⟩ := Option.map_eq_some_iff.1 h
    exact suffix_of_pattern? hp

theorem exists_sign (s : List Char) : ∃ sign, IsSign sign ∧ sign ++ (readSign s).2 = s := by
  rw [readSign.eq_def]
  split
  next => exact ⟨['-'], .inr (.inr rfl), rfl⟩
  next => exact ⟨['+'], .inr (.inl rfl), rfl⟩
  next => exact ⟨[], .inl rfl, rfl⟩

theorem readSign_suffix (s : List Char) : (readSign s).2 <:+ s := by
  obtain ⟨sign, -, hs⟩ := exists_sign s
  exact ⟨sign, hs⟩

theorem exists_of_digitsEnd? (h : digitsEnd? s = some t) :
    ∃ c v, s = c :: v ∧ isDigitOrPoint c ∧ t <:+ v := by
  have hs := List.takeWhile_append_dropWhile (p := isDigit) (l := s)
  have hdigit {c : Char} {v : List Char} (hv : s.takeWhile isDigit = c :: v) : isDigitOrPoint c := by
    rw [isDigitOrPoint, List.mem_takeWhile_imp (hv ▸ .head v : c ∈ s.takeWhile isDigit), Bool.true_or]
  rw [digitsEnd?] at h
  split at h
  next u htake hdrop =>
    split at h
    next =>
      cases h
      rw [htake, hdrop] at hs
      exact ⟨'.', u, hs.symm, by decide, List.dropWhile_suffix _⟩
    next => cases h
  next => cases h
  next c v u htake hdrop =>
    cases h
    rw [htake, hdrop] at hs
    refine ⟨c, v ++ '.' :: u, hs.symm, hdigit htake, ?_⟩
    exact (List.dropWhile_suffix _).trans ((List.suffix_cons '.' u).trans (List.suffix_append ..))
  next c v htake _ =>
    cases h
    rw [htake] at hs
    exact ⟨c, v ++ s.dropWhile isDigit, hs.symm, hdigit htake, List.suffix_append ..⟩

theorem suffix_of_digitsEnd? (h : digitsEnd? s = some t) : t <:+ s := by
  obtain ⟨c, v, rfl, -, ht⟩ := exists_of_digitsEnd? h
  exact ht.trans (List.suffix_cons c v)

theorem suffix_exponentEnd (s : List Char) : (exponentEnd s).outcome.Gives fun _ rest => rest <:+ s := by
  cases s with
  | nil => exact List.suffix_rfl
  | cons c s =>
    rw [exponentEnd]
    split
    next =>
      split
      next =>
        calc dropExponent s <:+ (readSign s).2 := List.dropWhile_suffix _
          _ <:+ s := readSign_suffix s
          _ <:+ c :: s := List.suffix_cons c s
      next => trivial
    next => exact List.suffix_rfl

theorem suffix_boost? (s : List Char) : (boost? s).outcome.Gives fun _ rest => rest <:+ s := by
  by_cases hs : s.head? = some '^'
  · obtain ⟨s, rfl⟩ := List.head?_eq_some_iff.1 hs
    rw [boost?_caret]
    split
    next => exact List.suffix_rfl
    next t ht =>
      refine gives_andThen fun _ rest hrest => ?_
      calc rest <:+ t := gives_iff.1 (suffix_exponentEnd t) _ _ hrest
        _ <:+ (readSign s).2 := suffix_of_digitsEnd? ht
        _ <:+ s := readSign_suffix s
        _ <:+ '^' :: s := List.suffix_cons _ s
  · rw [boost?_of_head? hs]
    exact List.suffix_rfl

end Suffix

inductive Reader
  | disjunction | alternatives | conjunction | conjuncts | clause | signed | factor | primary
  deriving DecidableEq

namespace Reader

abbrev Value : Reader → Type
  | .disjunction | .factor | .primary => Query
  | .alternatives | .conjuncts => List Clause
  | .conjunction | .clause | .signed => Clause

def level : Reader → Nat
  | .primary => 0
  | .factor => 1
  | .signed => 2
  | .clause => 3
  | .conjunction | .conjuncts => 4
  | .disjunction | .alternatives => 5

def size (r : Reader) (s : List Char) : Nat := 6 * s.length + r.level

def Repeats (r : Reader) : Prop := r = .alternatives ∨ r = .conjuncts

end Reader

def answer (d : String) : (r : Reader) → List Char → Outcome r.Value
  | .disjunction, s => (disjunction d s).outcome
  | .alternatives, s => (alternatives d s).outcome
  | .conjunction, s => (conjunction d s).outcome
  | .conjuncts, s => (conjuncts d s).outcome
  | .clause, s => (clause d s).outcome
  | .signed, s => (signed d s).outcome
  | .factor, s => (factor d s).outcome
  | .primary, s => (primary d s).outcome

theorem suffix_answer (d : String) (r : Reader) (s : List Char) :
    (answer d r s).Gives fun _ rest => rest <:+ s :=
  match r with
  | .disjunction => by
    rw [answer, disjunction_outcome]
    refine gives_andThen fun c rest hc => .map ?_
    have hlen := Reply.length_lt hc
    have hrest := gives_iff.1 (suffix_answer d .conjunction s) c rest hc
    exact (suffix_answer d .alternatives rest).imp fun _ _ h => h.trans hrest
  | .alternatives => by
    have hskip := (skipOr_suffix (skipSpace s)).trans (skipSpace_suffix s)
    have hle := hskip.length_le
    rw [answer, alternatives_outcome]
    refine gives_elim List.suffix_rfl fun c rest hc => .map ?_
    have hlen := Reply.length_lt hc
    have hrest := gives_iff.1 (suffix_answer d .conjunction (skipOr (skipSpace s))) c rest hc
    exact (suffix_answer d .alternatives rest).imp fun _ _ h => h.trans (hrest.trans hskip)
  | .conjunction => by
    rw [answer, conjunction_outcome]
    refine gives_andThen fun c rest hc => .map ?_
    have hlen := Reply.length_lt hc
    have hrest := gives_iff.1 (suffix_answer d .clause s) c rest hc
    exact (suffix_answer d .conjuncts rest).imp fun _ _ h => h.trans hrest
  | .conjuncts => by
    rw [answer, conjuncts_outcome]
    split
    next => exact List.suffix_rfl
    next t ht =>
      have hskip := (suffix_of_skipAnd? ht).trans (skipSpace_suffix s)
      have hle := hskip.length_le
      refine gives_elim List.suffix_rfl fun c rest hc => .map ?_
      have hlen := Reply.length_lt hc
      have hrest := gives_iff.1 (suffix_answer d .clause t) c rest hc
      exact (suffix_answer d .conjuncts rest).imp fun _ _ h => h.trans (hrest.trans hskip)
  | .clause => by
    have hskip := skipSpace_suffix s
    have hle := hskip.length_le
    rw [answer, clause_outcome]
    refine gives_elim (.map ?_) fun c rest hc => ?_
    · exact (suffix_answer d .factor (skipSpace s)).imp fun _ _ h => h.trans hskip
    · exact (gives_iff.1 (suffix_answer d .signed (skipSpace s)) c rest hc).trans hskip
  | .signed => by
    rw [answer, signed_outcome]
    split
    next t ht =>
      have hle := length_lt_of_keyword? (by decide) ht
      exact .map ((suffix_answer d .clause t).imp fun _ _ h => h.trans (suffix_of_keyword? ht))
    next t _ ht =>
      have hle := length_lt_of_strip? (List.cons_ne_nil _ _) ht
      exact .map ((suffix_answer d .factor t).imp fun _ _ h => h.trans (suffix_of_strip? ht))
    next t _ _ ht =>
      have hle := length_lt_of_strip? (List.cons_ne_nil _ _) ht
      exact .map ((suffix_answer d .factor t).imp fun _ _ h => h.trans (suffix_of_strip? ht))
    next => trivial
  | .factor => by
    rw [answer, factor_outcome]
    refine gives_andThen fun q rest hq => .map ?_
    have hrest := gives_iff.1 (suffix_answer d .primary s) q rest hq
    exact (suffix_boost? rest).imp fun _ _ h => h.trans hrest
  | .primary => by
    rw [answer, primary_outcome]
    split
    next t ht =>
      have hle := length_lt_of_strip? (List.cons_ne_nil _ _) ht
      have hskip := (skipSpace_suffix t).trans (suffix_of_strip? ht)
      have hlen := length_skipSpace_le t
      refine gives_andThen fun q rest hq => ?_
      have hrest := gives_iff.1 (suffix_answer d .disjunction (skipSpace t)) q rest hq
      split
      next u hu => exact (suffix_of_strip? hu).trans ((skipSpace_suffix rest).trans (hrest.trans hskip))
      next => trivial
    next ht => exact suffix_of_strip? ht
    next hs => exact suffix_of_simple? hs
    next => trivial
termination_by r.size s
decreasing_by all_goals simp only [Reader.size, Reader.level]; omega

/-- Goes on from what a call has answered, and gives another answer where it has none; `none` stands for a
call that has not ended. -/
def next {α β : Type} (o : Option (Outcome α)) (other : Option (Outcome β))
    (f : α → List Char → Option (Outcome β)) : Option (Outcome β) :=
  o.bind fun
    | .value a rest => f a rest
    | .miss => other
    | .fault place => some (.fault place)

theorem next_some {α β : Type} {o : Outcome α} {other : Option (Outcome β)} {other' : Outcome β}
    {f : α → List Char → Option (Outcome β)} {g : α → List Char → Outcome β}
    (hm : o = .miss → other = some other')
    (hf : ∀ a rest, o = .value a rest → f a rest = some (g a rest)) :
    next (some o) other f = some (o.elim other' g) := by
  cases o with
  | value a rest => exact hf a rest rfl
  | miss => exact hm rfl
  | fault place => rfl

section

variable (d : String) (call : (r : Reader) → List Char → Option (Outcome r.Value))

def step : (r : Reader) → List Char → Option (Outcome r.Value)
  | .disjunction, s =>
    next (call .conjunction s) (some .miss) fun c rest =>
      (call .alternatives rest).map (.map fun cs => Clause.combine (c :: cs))
  | .alternatives, s =>
    next (call .conjunction (skipOr (skipSpace s))) (some (.value [] s)) fun c rest =>
      (call .alternatives rest).map (.map (c :: ·))
  | .conjunction, s =>
    next (call .clause s) (some .miss) fun c rest =>
      (call .conjuncts rest).map (.map fun cs => Clause.chain (c :: cs))
  | .conjuncts, s =>
    match skipAnd? (skipSpace s) with
    | none => some (.value [] s)
    | some t =>
      next (call .clause t) (some (.value [] s)) fun c rest =>
        (call .conjuncts rest).map (.map (c :: ·))
  | .clause, s =>
    next (call .signed (skipSpace s))
      ((call .factor (skipSpace s)).map (.map fun q => ⟨.should, q⟩)) fun c rest => some (.value c rest)
  | .signed, s =>
    match keyword? "NOT" s, strip? ['+'] s, strip? ['-'] s with
    | some t, _, _ => (call .clause t).map (.map fun c => ⟨.mustNot, c.query⟩)
    | none, some t, _ => (call .factor t).map (.map fun q => ⟨.must, q⟩)
    | none, none, some t => (call .factor t).map (.map fun q => ⟨.mustNot, q⟩)
    | none, none, none => some .miss
  | .factor, s =>
    next (call .primary s) (some .miss) fun q rest =>
      some ((boost? rest).outcome.map fun b => b.elim q q.boosted)
  | .primary, s =>
    match strip? ['('] s, strip? ['*', ':', '*'] s, simple? d s with
    | some t, _, _ =>
      next (call .disjunction (skipSpace t)) (some .miss) fun q rest =>
        match strip? [')'] (skipSpace rest) with
        | some u => some (.value q u)
        | none => some .miss
    | none, some t, _ => some (.value .matchAll t)
    | none, none, some (q, rest) => some (.value q rest)
    | none, none, none => some .miss

theorem step_eq (r : Reader) (s : List Char)
    (h : ∀ r' t, t <:+ s → r'.size t < r.size s → call r' t = some (answer d r' t)) :
    step d call r s = some (answer d r s) := by
  simp only [Reader.size] at h
  -- each call is on a later part of the text, or by a lower reader on the same one
  cases r with
  | disjunction =>
    rw [step, answer, disjunction_outcome, andThen_eq_elim,
      h .conjunction s List.suffix_rfl (by simp only [Reader.level]; omega)]
    refine next_some (fun _ => rfl) fun c rest hc => ?_
    have hlen := Reply.length_lt hc
    have hrest := gives_iff.1 (suffix_answer d .conjunction s) c rest hc
    rw [h .alternatives rest hrest (by simp only [Reader.level]; omega)]
    rfl
  | alternatives =>
    have hskip := (skipOr_suffix (skipSpace s)).trans (skipSpace_suffix s)
    have hle := hskip.length_le
    rw [step, answer, alternatives_outcome,
      h .conjunction _ hskip (by simp only [Reader.level]; omega)]
    refine next_some (fun _ => rfl) fun c rest hc => ?_
    have hlen := Reply.length_lt hc
    have hrest := gives_iff.1 (suffix_answer d .conjunction (skipOr (skipSpace s))) c rest hc
    rw [h .alternatives rest (hrest.trans hskip) (by simp only [Reader.level]; omega)]
    rfl
  | conjunction =>
    rw [step, answer, conjunction_outcome, andThen_eq_elim,
      h .clause s List.suffix_rfl (by simp only [Reader.level]; omega)]
    refine next_some (fun _ => rfl) fun c rest hc => ?_
    have hlen := Reply.length_lt hc
    have hrest := gives_iff.1 (suffix_answer d .clause s) c rest hc
    rw [h .conjuncts rest hrest (by simp only [Reader.level]; omega)]
    rfl
  | conjuncts =>
    rw [step, answer, conjuncts_outcome]
    cases ht : skipAnd? (skipSpace s) with
    | none => rfl
    | some t =>
      dsimp only
      have hskip := (suffix_of_skipAnd? ht).trans (skipSpace_suffix s)
      have hle := hskip.length_le
      rw [h .clause t hskip (by simp only [Reader.level]; omega)]
      refine next_some (fun _ => rfl) fun c rest hc => ?_
      have hlen := Reply.length_lt hc
      have hrest := gives_iff.1 (suffix_answer d .clause t) c rest hc
      rw [h .conjuncts rest (hrest.trans hskip) (by simp only [Reader.level]; omega)]
      rfl
  | clause =>
    have hskip := skipSpace_suffix s
    have hle := hskip.length_le
    rw [step, answer, clause_outcome, h .signed _ hskip (by simp only [Reader.level]; omega),
      h .factor _ hskip (by simp only [Reader.level]; omega)]
    exact next_some (fun _ => rfl) fun _ _ _ => rfl
  | signed =>
    rw [step, answer, signed_outcome]
    cases ht : keyword? "NOT" s with
    | some t =>
      have hle := length_lt_of_keyword? (by decide) ht
      dsimp only
      rw [h .clause t (suffix_of_keyword? ht) (by simp only [Reader.level]; omega)]
      rfl
    | none =>
      have hsign {c : Char} {t : List Char} (ht : strip? [c] s = some t) :
          call .factor t = some (answer d .factor t) := by
        have hle := length_lt_of_strip? (List.cons_ne_nil _ _) ht
        exact h .factor t (suffix_of_strip? ht) (by simp only [Reader.level]; omega)
      cases hp : strip? ['+'] s with
      | some t =>
        dsimp only
        rw [hsign hp]
        rfl
      | none =>
        cases hm : strip? ['-'] s with
        | some t =>
          dsimp only
          rw [hsign hm]
          rfl
        | none => rfl
  | factor =>
    rw [step, answer, factor_outcome, andThen_eq_elim,
      h .primary s List.suffix_rfl (by simp only [Reader.level]; omega)]
    exact next_some (fun _ => rfl) fun _ _ _ => rfl
  | primary =>
    rw [step, answer, primary_outcome]
    cases ht : strip? ['('] s with
    | some t =>
      have hle := length_lt_of_strip? (List.cons_ne_nil _ _) ht
      have hlen := length_skipSpace_le t
      dsimp only
      rw [h .disjunction (skipSpace t) ((skipSpace_suffix t).trans (suffix_of_strip? ht))
        (by simp only [Reader.level]; omega), andThen_eq_elim]
      refine next_some (fun _ => rfl) fun q rest _ => ?_
      cases strip? [')'] (skipSpace rest) <;> rfl
    | none => cases strip? ['*', ':', '*'] s <;> cases simple? d s <;> rfl

end

def read (d : String) : Nat → (r : Reader) → List Char → Option (Outcome r.Value)
  | 0, _, _ => none
  | fuel + 1, r, s => step d (read d fuel) r s

theorem read_eq (d : String) {fuel : Nat} {r : Reader} {s : List Char} (h : r.size s < fuel) :
    read d fuel r s = some (answer d r s) := by
  induction fuel generalizing r s with
  | zero => cases h
  | succ fuel ih => exact step_eq d (read d fuel) r s fun r' t _ ht => ih (by omega)

def parseWithin (d : String) (fuel : Nat) (text : String) : Option (Except Error Query) :=
  if trim text.toList = [] then some (.ok .matchAll)
  else
    (read d fuel .disjunction (skipSpace text.toList)).map fun
      | .value q rest =>
        if skipSpace rest = [] then .ok q
        else .error (.badQuery text (String.ofList (skipSpace rest)))
      | .miss => .error (.badQuery text (String.ofList (skipSpace text.toList)))
      | .fault place => .error (.badQuery text (String.ofList place))

theorem parseWithin_eq (d : String) {fuel : Nat} {text : String} (h : 6 * text.toList.length + 5 < fuel) :
    parseWithin d fuel text = some (parse d text) := by
  have hlen := length_skipSpace_le text.toList
  have hsize : Reader.size .disjunction (skipSpace text.toList) < fuel := by
    simp only [Reader.size, Reader.level]
    omega
  rw [parseWithin, parse_eq, read_eq d hsize]
  split
  next => rfl
  next =>
    rw [answer, Option.map_some]
    cases (disjunction d (skipSpace text.toList)).outcome <;> rfl

/-- Readers end on every text, and leave an end of it. -/
theorem readers_end (d : String) :
    (∀ r s, (answer d r s).Gives fun _ rest => rest <:+ s ∧ (r.Repeats ∨ rest.length < s.length)) ∧
      (∀ call r s, (∀ r' t, t <:+ s → r'.size t < r.size s → call r' t = some (answer d r' t)) →
        step d call r s = some (answer d r s)) ∧
      (∀ fuel r s, r.size s < fuel → read d fuel r s = some (answer d r s)) ∧
      ∀ fuel text, 6 * text.toList.length + 5 < fuel → parseWithin d fuel text = some (parse d text) := by
  refine ⟨fun r s => ?_, step_eq d, fun fuel r s => read_eq d, fun fuel text => parseWithin_eq d⟩
  refine gives_iff.2 fun a rest h => ⟨gives_iff.1 (suffix_answer d r s) a rest h, ?_⟩
  cases r with
  | alternatives => exact .inl (.inl rfl)
  | conjuncts => exact .inl (.inr rfl)
  | _ => exact .inr (Reply.length_lt h)

theorem readers_end_unclosed :
    parseWithin allField 90 "NOT +(a AND -" = some (parse allField "NOT +(a AND -") ∧
      (parse allField "NOT +(a AND -").isOk = false ∧
      step allField (fun r t => some (answer allField r t)) .signed ['+', 'a'] =
        some (answer allField .signed ['+', 'a']) ∧
      read allField 15 .signed ['+', 'a'] = some (answer allField .signed ['+', 'a']) := by
  obtain ⟨-, hstep, hread, hends⟩ := readers_end allField
  have hparse := hends 90 "NOT +(a AND -" (by decide)
  have hfails : (parseWithin allField 90 "NOT +(a AND -").map (·.isOk) = some false := by decide +kernel
  rw [hparse] at hfails
  exact ⟨hparse, Option.some.inj hfails, hstep _ _ _ fun _ _ _ _ => rfl, hread 15 _ _ (by decide)⟩

end Query

end Corpus
