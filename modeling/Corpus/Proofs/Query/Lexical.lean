import Corpus.Proofs.Query.Reading
import Mathlib.Data.List.DropRight

/-! What single readers do in front of a closing parenthesis: it belongs to no word, number or sign, so
that what they read before it is what they read where the text ends. -/

namespace Corpus

namespace Text

variable {p : Char → Bool} {s u word t : List Char}

theorem takeWhile_close (hp : p ')' = false) (s u : List Char) :
    (s ++ ')' :: u).takeWhile p = s.takeWhile p := by
  induction s with
  | nil => simp [hp]
  | cons c s ih => rw [List.cons_append, List.takeWhile_cons, List.takeWhile_cons, ih]

theorem dropWhile_close (hp : p ')' = false) (s u : List Char) :
    (s ++ ')' :: u).dropWhile p = s.dropWhile p ++ ')' :: u := by
  induction s with
  | nil => simp [hp]
  | cons c s ih =>
    rw [List.cons_append, List.dropWhile_cons, List.dropWhile_cons, ih]
    split <;> rfl

theorem any_head?_close (hp : p ')' = false) (s u : List Char) :
    (s ++ ')' :: u).head?.any p = s.head?.any p := by
  cases s with
  | nil => exact hp
  | cons c s => rfl

theorem takeWhile_append_of_ne_nil (h : s.dropWhile p ≠ []) (e : List Char) :
    (s ++ e).takeWhile p = s.takeWhile p := by
  induction s with
  | nil => exact absurd rfl h
  | cons c s ih =>
    rw [List.dropWhile_cons] at h
    rw [List.cons_append, List.takeWhile_cons, List.takeWhile_cons]
    split
    next hc => rw [ih (by rwa [if_pos hc] at h)]
    next => rfl

theorem dropWhile_append_of_ne_nil (h : s.dropWhile p ≠ []) (e : List Char) :
    (s ++ e).dropWhile p = s.dropWhile p ++ e := by
  rw [List.dropWhile_append, if_neg (by simpa using h)]

theorem skipSpace_close (s u : List Char) : skipSpace (s ++ ')' :: u) = skipSpace s ++ ')' :: u :=
  dropWhile_close rfl s u

theorem skipSpace_skipSpace (s : List Char) : skipSpace (skipSpace s) = skipSpace s :=
  List.dropWhile_idempotent isSpace s

theorem strip?_eq_some_iff : strip? word s = some t ↔ s = word ++ t := by
  fun_induction strip? word s with
  | case1 s => simp [eq_comm]
  | case2 => simp
  | case3 w word s ih => simp [ih]
  | case4 w word c s hc => simp [Ne.symm hc]

theorem strip?_append (word e : List Char) (h : strip? word s = some t) :
    strip? word (s ++ e) = some (t ++ e) := by
  rw [strip?_eq_some_iff] at h ⊢
  rw [h, List.append_assoc]

theorem strip?_close (hw : ')' ∉ word) (s u : List Char) :
    strip? word (s ++ ')' :: u) = (strip? word s).map (· ++ ')' :: u) := by
  fun_induction strip? word s with
  | case1 s => rfl
  | case2 w word =>
    have hne : w ≠ ')' := fun h => hw (h ▸ .head _)
    simp [strip?, hne]
  | case3 w word s ih => simp [strip?, ih fun h => hw (.tail _ h)]
  | case4 w word c s hc => simp [strip?, hc]

theorem Runs.mem_of_has {runs : Runs} {n : Nat} (h : runs.has n) :
    n ∈ runs.flatMap fun run => List.range' run.1 (run.2 + 1 - run.1) := by
  induction runs with
  | nil => cases h
  | cons run rest ih =>
    obtain ⟨first, last⟩ := run
    simp only [Runs.has, Bool.and_eq_true, Bool.or_eq_true, decide_eq_true_eq] at h
    rw [List.flatMap_cons, List.mem_append, List.mem_range'_1]
    obtain ⟨hfirst, hlast | hrest⟩ := h
    · exact .inl ⟨hfirst, by omega⟩
    · exact .inr (ih hrest)

theorem isAlphanumeric_of_isBlank {c : Char} (h : isBlank c) : isAlphanumeric c = false := by
  have hcodes : ∀ n ∈ blanks.flatMap fun run => List.range' run.1 (run.2 + 1 - run.1),
      (alphabetic.has n || (decimalDigits.has n || otherNumbers.has n)) = false := by
    decide +kernel
  exact hcodes c.toNat (Runs.mem_of_has h)

end Text

namespace Query

open Text

variable {s u t : List Char}

theorem keyword?_close {word : String} (hw : ')' ∉ word.toList) (s u : List Char) :
    keyword? word (s ++ ')' :: u) = (keyword? word s).map (· ++ ')' :: u) := by
  rw [keyword?, keyword?, strip?_close hw]
  cases strip? word.toList s with
  | none => rfl
  | some t =>
    have hany := any_head?_close (p := isTermChar) (by decide) t u
    simp only [Option.map_some, Option.filter_some, hany]
    split <;> rfl

theorem keyword?_eq_some_iff {word : String} :
    keyword? word s = some t ↔ s = word.toList ++ t ∧ t.head?.any isTermChar = false := by
  rw [keyword?, Option.filter_eq_some_iff, strip?_eq_some_iff, Bool.not_eq_true']

theorem skipAnd?_close (s u : List Char) :
    skipAnd? (s ++ ')' :: u) = (skipAnd? s).map (· ++ ')' :: u) := by
  rw [skipAnd?, skipAnd?, keyword?_close (by decide), strip?_close (by decide)]
  cases keyword? "AND" s with
  | some t => simp [skipSpace_close]
  | none => cases strip? ['&', '&'] s <;> simp [skipSpace_close]

theorem skipOr_close (s u : List Char) : skipOr (s ++ ')' :: u) = skipOr s ++ ')' :: u := by
  rw [skipOr, skipOr, keyword?_close (by decide), strip?_close (by decide)]
  cases keyword? "OR" s with
  | some t => simp [skipSpace_close]
  | none => cases strip? ['|', '|'] s <;> simp [skipSpace_close]

theorem readSign_close (s u : List Char) :
    Number.readSign (s ++ ')' :: u) = ((Number.readSign s).1, (Number.readSign s).2 ++ ')' :: u) := by
  cases s with
  | nil => rfl
  | cons c s =>
    rw [Number.readSign.eq_def, Number.readSign.eq_def (c :: s)]
    simp only [List.cons_append]
    split <;> split <;> simp_all

theorem digitsEnd?_close (s u : List Char) :
    digitsEnd? (s ++ ')' :: u) = (digitsEnd? s).map (· ++ ')' :: u) := by
  have hd : Number.isDigit ')' = false := by decide
  rw [digitsEnd?, digitsEnd?, takeWhile_close hd, dropWhile_close hd]
  cases s.takeWhile Number.isDigit with
  | nil =>
    cases s.dropWhile Number.isDigit with
    | nil => rfl
    | cons c t =>
      by_cases hc : c = '.'
      · subst hc
        simp only [List.cons_append, any_head?_close hd, dropWhile_close hd]
        split <;> rfl
      · simp [hc]
  | cons c digits =>
    cases s.dropWhile Number.isDigit with
    | nil => rfl
    | cons c' t =>
      by_cases hc : c' = '.'
      · subst hc
        simp only [List.cons_append, dropWhile_close hd, Option.map_some]
      · simp [hc]

theorem exponentEnd_close (s u : List Char) :
    (exponentEnd (s ++ ')' :: u)).outcome = (exponentEnd s).outcome.followed (')' :: u) := by
  have hd : Number.isDigit ')' = false := by decide
  cases s with
  | nil => rfl
  | cons c s =>
    have hdrop : dropExponent (s ++ ')' :: u) = dropExponent s ++ ')' :: u := by
      rw [dropExponent, readSign_close]
      exact dropWhile_close hd _ u
    simp only [List.cons_append, exponentEnd, readSign_close, any_head?_close hd, hdrop]
    split
    next =>
      split <;> rfl
    next => rfl

theorem boost?_caret (s : List Char) :
    (boost? ('^' :: s)).outcome =
      match digitsEnd? (Number.readSign s).2 with
      | none => .value none ('^' :: s)
      | some t => (exponentEnd t).outcome.andThen fun _ rest =>
        .value (Number.Binary.ofText? (String.ofList (s.take (s.length - rest.length)))) rest := by
  rw [boost?]
  split
  next h => rw [h]; rfl
  next t h =>
    refine (Reply.outcome_bind (g := fun _ rest =>
      .value (Number.Binary.ofText? (String.ofList (s.take (s.length - rest.length)))) rest)
      fun _ rest hr => rfl).trans ?_
    simp only [h]

theorem boost?_of_head? (h : s.head? ≠ some '^') : (boost? s).outcome = .value none s := by
  rw [boost?.eq_def]
  split
  next => exact absurd rfl h
  next => rfl

theorem exponentEnd_ne_miss (s : List Char) : (exponentEnd s).outcome ≠ .miss := by
  intro h
  cases s with
  | nil => cases h
  | cons c s =>
    rw [exponentEnd] at h
    split at h
    next => split at h <;> cases h
    next => cases h

theorem boost?_ne_miss (s : List Char) : (boost? s).outcome ≠ .miss := by
  by_cases hs : s.head? = some '^'
  · obtain ⟨s, rfl⟩ := List.head?_eq_some_iff.1 hs
    rw [boost?_caret]
    split
    next => exact nofun
    next t _ =>
      have hx := exponentEnd_ne_miss t
      cases h : (exponentEnd t).outcome with
      | miss => exact absurd h hx
      | value a rest => exact nofun
      | fault place => exact nofun
  · rw [boost?_of_head? hs]
    exact nofun

theorem boost?_close (s u : List Char) :
    (boost? (s ++ ')' :: u)).outcome = (boost? s).outcome.followed (')' :: u) := by
  by_cases hs : s.head? = some '^'
  · obtain ⟨s, rfl⟩ := List.head?_eq_some_iff.1 hs
    rw [List.cons_append, boost?_caret, boost?_caret, readSign_close, digitsEnd?_close]
    cases hd : digitsEnd? (Number.readSign s).2 with
    | none => rfl
    | some t =>
      simp only [Option.map_some, exponentEnd_close]
      cases hx : (exponentEnd t).outcome with
      | miss => rfl
      | fault place => rfl
      | value a rest =>
        have hlen : (s ++ ')' :: u).length - (rest ++ ')' :: u).length = s.length - rest.length := by
          simp only [List.length_append]
          omega
        simp only [Outcome.followed, Outcome.andThen, hlen,
          List.take_append_of_le_length (Nat.sub_le s.length rest.length)]
  · have hs' : (s ++ ')' :: u).head? ≠ some '^' := by
      cases s with
      | nil => simp
      | cons c s => exact hs
    rw [boost?_of_head? hs, boost?_of_head? hs']
    rfl

theorem word?_close (colons : Bool) (s u : List Char) :
    word? colons (s ++ ')' :: u) = (word? colons s).map fun (p, rest) => (p, rest ++ ')' :: u) := by
  have hw : isWordChar colons ')' = false := by cases colons <;> decide
  rw [word?, word?, takeWhile_close hw, dropWhile_close hw]
  split <;> rfl

theorem boundText?_append {text rest : List Char} (h : boundText? s = some (text, rest))
    (hr : rest ≠ []) (e : List Char) : boundText? (s ++ e) = some (text, rest ++ e) := by
  rw [boundText?] at h ⊢
  split at h
  next => cases h
  next text' ht =>
    cases h
    rw [takeWhile_append_of_ne_nil hr, dropWhile_append_of_ne_nil hr]
    split
    next h => exact absurd h ht
    next => rfl

theorem skipSomeSpace?_close (h : skipSomeSpace? s = some t) (u : List Char) :
    skipSomeSpace? (s ++ ')' :: u) = some (t ++ ')' :: u) := by
  cases s with
  | nil => cases h
  | cons c s =>
    rw [skipSomeSpace?] at h
    rw [List.cons_append, skipSomeSpace?, skipSpace_close]
    split at h
    next hc =>
      cases h
      rw [if_pos hc]
    next => cases h

theorem range?_close {includeLower : Bool} {p : Pattern} {rest : List Char}
    (h : range? includeLower s = some (p, rest)) (u : List Char) :
    range? includeLower (s ++ ')' :: u) = some (p, rest ++ ')' :: u) := by
  simp only [range?, Option.bind_eq_bind, Option.bind_eq_some_iff] at h ⊢
  obtain ⟨⟨lower, s₀⟩, h₀, s₁, h₁, s₂, h₂, s₃, h₃, ⟨upper, s₄⟩, h₄, h⟩ := h
  have hne₀ : s₀ ≠ [] := by rintro rfl; cases h₁
  have hne₄ : s₄ ≠ [] := by rintro rfl; cases h
  refine ⟨(lower, s₀ ++ ')' :: u), ?_, s₁ ++ ')' :: u, skipSomeSpace?_close h₁ u, s₂ ++ ')' :: u,
    strip?_append _ _ h₂, s₃ ++ ')' :: u, skipSomeSpace?_close h₃ u, (upper, s₄ ++ ')' :: u),
    boundText?_append h₄ hne₄ _, ?_⟩
  · rw [skipSpace_close]
    exact boundText?_append h₀ hne₀ _
  · dsimp only at h ⊢
    rw [skipSpace_close]
    split at h
    next hs =>
      cases h
      rw [hs]
      rfl
    next hs =>
      cases h
      rw [hs]
      rfl
    next => cases h

def opensPattern (c : Char) : Bool := c = '"' || c = '[' || c = '\x7b'

theorem pattern?_of_head? {colons : Bool} (h : s.head?.any opensPattern = false) :
    pattern? colons s = word? colons s := by
  rw [pattern?.eq_def]
  split <;> simp_all [opensPattern]

theorem pattern?_close {colons : Bool} {p : Pattern} {rest : List Char}
    (h : pattern? colons s = some (p, rest)) (u : List Char) :
    pattern? colons (s ++ ')' :: u) = some (p, rest ++ ')' :: u) := by
  by_cases ho : s.head?.any opensPattern
  · obtain ⟨c, t, rfl, hc⟩ : ∃ c t, s = c :: t ∧ opensPattern c := by cases s <;> simp_all
    simp only [opensPattern, Bool.or_eq_true, decide_eq_true_eq] at hc
    obtain (rfl | rfl) | rfl := hc
    · rw [pattern?] at h
      rw [List.cons_append, pattern?]
      cases ht : t.dropWhile (· ≠ '"') with
      | nil => rw [ht] at h; cases h
      | cons c t' =>
        have hne : t.dropWhile (· ≠ '"') ≠ [] := ht ▸ List.cons_ne_nil c t'
        rw [ht] at h
        cases h
        rw [dropWhile_append_of_ne_nil hne, takeWhile_append_of_ne_nil hne, ht]
        rfl
    · exact range?_close h u
    · exact range?_close h u
  · have ho' := any_head?_close (p := opensPattern) (by decide) s u
    rw [pattern?_of_head? (by simpa using ho)] at h
    rw [pattern?_of_head? (ho'.trans (by simpa using ho)), word?_close, h]
    rfl

theorem isTermChar_of_isFieldChar {c : Char} (h : isFieldChar c) : isTermChar c := by
  cases ht : isTermChar c with
  | true => rfl
  | false =>
    rw [isTermChar, Bool.not_eq_false', Bool.or_eq_true] at ht
    refine absurd h (Bool.eq_false_iff.1 ?_)
    rcases ht with hb | hc
    · have hdot : c ≠ '.' := by rintro rfl; revert hb; decide
      have hline : c ≠ '_' := by rintro rfl; revert hb; decide
      simp [isFieldChar, isAlphanumeric_of_isBlank hb, hdot, hline]
    · have hmarks : ['(', ')', '"', '[', ']', '\x7b', '\x7d', '^', ':'].all (!isFieldChar ·) := by
        decide +kernel
      simpa using List.all_eq_true.1 hmarks c (List.contains_iff_mem.1 hc)

theorem opensPattern_of_isTermChar {c : Char} (h : isTermChar c) : opensPattern c = false := by
  cases ho : opensPattern c with
  | false => rfl
  | true =>
    simp only [opensPattern, Bool.or_eq_true, decide_eq_true_eq] at ho
    obtain (rfl | rfl) | rfl := ho <;> revert h <;> decide

theorem skipSpace_of_isTermChar (h : s.head?.any isTermChar) : skipSpace s = s := by
  cases s with
  | nil => rfl
  | cons c s =>
    have hterm : isTermChar c := h
    refine List.dropWhile_cons_of_neg fun hc => ?_
    simp only [isSpace, Bool.or_eq_true, decide_eq_true_eq] at hc
    obtain ((rfl | rfl) | rfl) | rfl := hc <;> exact absurd hterm (by decide)

theorem isWordChar_false : isWordChar false = isTermChar := by
  funext c
  rw [isWordChar, Bool.false_and, Bool.or_false]

theorem word?_operator {word : List Char} (hw : ∀ c ∈ word, isTermChar c) (ho : isOperator word)
    (hs : s.head?.any isTermChar = false) : word? false (word ++ s) = none := by
  rw [word?, isWordChar_false]
  exact if_pos (.inr (by rw [takeWhile_append_eq hw hs]; exact ho))

theorem fielded?_close (d : String) (s u : List Char) :
    fielded? d (s ++ ')' :: u) = (fielded? d s).map (fun (q, rest) => (q, rest ++ ')' :: u)) ∨
      fielded? d s = none ∧ ∃ name t, name ≠ [] ∧ (∀ c ∈ name, isFieldChar c) ∧
        s = name ++ ':' :: t ∧ t.head?.any opensPattern := by
  have hf : isFieldChar ')' = false := by decide +kernel
  have hs := List.takeWhile_append_dropWhile (p := isFieldChar) (l := s)
  have hfield := fun c => List.mem_takeWhile_imp (p := isFieldChar) (l := s) (x := c)
  rw [fielded?, fielded?, takeWhile_close hf, dropWhile_close hf]
  cases hname : s.takeWhile isFieldChar with
  | nil => exact .inl rfl
  | cons c name =>
    cases ht : s.dropWhile isFieldChar with
    | nil => exact .inl rfl
    | cons c' t =>
      by_cases hc : c' = ':'
      · subst hc
        simp only [List.cons_append]
        cases hp : pattern? true t with
        | some p => exact .inl (by rw [pattern?_close hp]; rfl)
        | none =>
          cases ho : t.head?.any opensPattern with
          | true =>
            rw [hname, ht] at hs
            rw [hname] at hfield
            exact .inr ⟨rfl, c :: name, t, List.cons_ne_nil c name, hfield, hs.symm, ho⟩
          | false =>
            have ho' := any_head?_close (p := opensPattern) (by decide) t u
            rw [pattern?_of_head? ho] at hp
            exact .inl (by rw [pattern?_of_head? (ho'.trans ho), word?_close, hp]; rfl)
      · exact .inl (by simp [hc])

section

variable {d : String} {q : Query} {rest : List Char}

theorem pattern?_of_name {name : List Char} (hne : name ≠ []) (hn : ∀ c ∈ name, isFieldChar c)
    (t : List Char) : pattern? false (name ++ ':' :: t) =
      if isOperator name then none else some (ofWord name, ':' :: t) := by
  obtain ⟨c, name', rfl⟩ := List.exists_cons_of_ne_nil hne
  have hterm : ∀ c' ∈ c :: name', isTermChar c' := fun c' hc' =>
    isTermChar_of_isFieldChar (hn c' hc')
  have hword : ∀ c' ∈ c :: name', isWordChar false c' := isWordChar_false ▸ hterm
  have hhead : (c :: name' ++ ':' :: t).head?.any opensPattern = false :=
    opensPattern_of_isTermChar (hterm c (.head _))
  rw [pattern?_of_head? hhead]
  split
  next ho => exact word?_operator hterm ho rfl
  next ho => exact word?_append hword hne ho (by simp; decide)

theorem simple?_close (h : simple? d s = some (q, rest)) (u : List Char) :
    simple? d (s ++ ')' :: u) = some (q, rest ++ ')' :: u) ∨ rest.head? = some ':' := by
  rcases fielded?_close d s u with hf | ⟨hf, name, t, hne, hn, rfl, -⟩
  · rcases Option.or_eq_some_iff.1 h with hs | ⟨hs, hp⟩
    · exact .inl (by rw [simple?, hf, hs]; rfl)
    · obtain ⟨⟨p, rest⟩, hp, ⟨⟩⟩ := Option.map_eq_some_iff.1 hp
      exact .inl (by rw [simple?, hf, hs, pattern?_close hp]; rfl)
  · rw [simple?, hf, Option.none_or, pattern?_of_name hne hn] at h
    split at h
    next => cases h
    next =>
      cases h
      exact .inr rfl

/-- Where a query waits for what closes a pattern. -/
def Blocked (s : List Char) : Prop :=
  s.head?.any (fun c => opensPattern c || c = '(') ∨
    ∃ word t, isOperator word ∧ (∀ c ∈ word, isFieldChar c) ∧ s = word ++ ':' :: t

theorem simple?_close_of_none (h : simple? d s = none) (u : List Char) :
    simple? d (s ++ ')' :: u) = none ∨ Blocked s := by
  obtain ⟨hs, hp⟩ := Option.or_eq_none_iff.1 h
  have hp := Option.map_eq_none_iff.1 hp
  rcases fielded?_close d s u with hf | ⟨hf, name, t, hne, hn, rfl, -⟩
  · cases ho : s.head?.any opensPattern with
    | true =>
      refine .inr (.inl ?_)
      cases s with
      | nil => cases ho
      | cons c t => exact Bool.or_eq_true_iff.2 (.inl ho)
    | false =>
      have ho' := any_head?_close (p := opensPattern) (by decide) s u
      rw [pattern?_of_head? ho] at hp
      refine .inl ?_
      rw [simple?, hf, hs, pattern?_of_head? (ho'.trans ho), word?_close, hp]
      rfl
  · rw [pattern?_of_name hne hn] at hp
    split at hp
    next ho => exact .inr (.inr ⟨name, t, ho, hn, rfl⟩)
    next => cases hp

end

end Query

end Corpus
