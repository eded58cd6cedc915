import Corpus.Proofs.Query.Lexical

/-! Texts that go on with a closing parenthesis.  Only where reading stops anyway can a clause be there
that the text by itself does not have. -/

namespace Corpus.Query

open Text

namespace Outcome

variable {α : Type u} {β : Type v} {o : Outcome α} {rest : List Char}

theorem map_eq_value {f : α → β} {b : β} :
    o.map f = .value b rest ↔ ∃ a, o = .value a rest ∧ f a = b := by
  cases o <;> simp [map, and_comm]

theorem andThen_eq_value {f : α → List Char → Outcome β} {b : β} :
    o.andThen f = .value b rest ↔ ∃ a r, o = .value a r ∧ f a r = .value b rest := by
  cases o <;> simp [andThen]

theorem of_map_eq_value {P : List Char → Prop} (h : ∀ a rest, o = .value a rest → P rest) {f : α → β}
    {b : β} (hb : o.map f = .value b rest) : P rest := by
  obtain ⟨a, ha, -⟩ := map_eq_value.1 hb
  exact h a rest ha

theorem map_eq_miss {f : α → β} : o.map f = .miss ↔ o = .miss := by
  cases o <;> simp [map]

/-- An answer stays the same on a text that goes on, but for those that leave a bad rest. -/
def Extends (e : List Char) (Bad : List Char → Prop) (o o' : Outcome α) : Prop :=
  ∀ a rest, o = .value a rest → o' = .value a (rest ++ e) ∨ Bad rest

def Grows (o o' : Outcome α) : Prop := o = .miss ∧ o' ≠ .miss

variable {e : List Char} {Bad Bad' : List Char → Prop} {o' : Outcome α}

theorem Extends.value (a : α) (rest : List Char) :
    Extends e Bad (.value a rest) (.value a (rest ++ e)) := fun _ _ h => by
  cases h
  exact .inl rfl

theorem Extends.miss : Extends e Bad (.miss : Outcome α) o' := nofun

theorem Extends.followed (o : Outcome α) : Extends e Bad o (o.followed e) := fun _ _ h => by
  cases h
  exact .inl rfl

theorem Extends.imp (h : Extends e Bad o o') (hb : ∀ rest, Bad rest → Bad' rest) :
    Extends e Bad' o o' :=
  fun a rest ho => (h a rest ho).imp_right (hb rest)

theorem Extends.map (h : Extends e Bad o o') (f : α → β) : Extends e Bad (o.map f) (o'.map f) := by
  intro b rest hb
  obtain ⟨a, ho, rfl⟩ := map_eq_value.1 hb
  refine (h a rest ho).imp_left fun ho' => ?_
  rw [ho']
  rfl

theorem Extends.andThen (h : Extends e Bad o o') {f : α → List Char → Outcome β}
    (hf : ∀ a rest, o = .value a rest → Extends e Bad' (f a rest) (f a (rest ++ e)))
    (hb : ∀ a rest, Bad rest → ∀ b rest', f a rest = .value b rest' → Bad' rest') :
    Extends e Bad' (o.andThen f) (o'.andThen f) := by
  intro b rest' h'
  obtain ⟨a, rest, ho, hfa⟩ := andThen_eq_value.1 h'
  rcases h a rest ho with ho' | hbad
  · rw [ho']
    exact hf a rest ho b rest' hfa
  · exact .inr (hb a rest hbad b rest' hfa)

theorem Extends.elim {other other' : Outcome β} (h : Extends e Bad o o')
    {f : α → List Char → Outcome β}
    (hf : ∀ a rest, o = .value a rest → Extends e Bad' (f a rest) (f a (rest ++ e)))
    (hb : ∀ a rest, Bad rest → ∀ b rest', f a rest = .value b rest' → Bad' rest')
    (hm : o = .miss → o' = .miss → Extends e Bad' other other')
    (hg : Grows o o' → ∀ b rest, other = .value b rest → Bad' rest) :
    Extends e Bad' (o.elim other f) (o'.elim other' f) := by
  cases ho : o with
  | value a rest =>
    intro b rest' hfa
    rcases h a rest ho with ho' | hbad
    · rw [ho']
      exact hf a rest ho b rest' hfa
    · exact .inr (hb a rest hbad b rest' hfa)
  | fault place => exact nofun
  | miss =>
    by_cases ho' : o' = .miss
    · rw [ho']
      exact hm ho ho'
    · exact fun b rest hother => .inr (hg ⟨ho, ho'⟩ b rest hother)

end Outcome

theorem Reply.length_lt {α : Type} {n : Nat} {r : Reply α n} {a : α} {rest : List Char}
    (h : r.outcome = .value a rest) : rest.length < n := by
  cases r with
  | ok a rest hr => cases h; exact hr
  | miss => cases h
  | fault place => cases h

open Outcome

variable {d : String} {s t u : List Char}

def isIdle (s : List Char) : Bool :=
  s.head?.all fun c => !(isTermChar c || opensPattern c || c = '(')

theorem primary_idle (h : isIdle s) (d : String) : (primary d s).outcome = .miss := by
  cases s with
  | nil => rw [primary_outcome]; rfl
  | cons c s =>
    simp only [isIdle, List.head?_cons, Option.all_some, Bool.not_eq_true', Bool.or_eq_false_iff,
      decide_eq_false_iff_not] at h
    obtain ⟨⟨ht, ho⟩, hc⟩ := h
    have hf : isFieldChar c = false := Bool.eq_false_iff.2 fun hf =>
      Bool.eq_false_iff.1 ht (isTermChar_of_isFieldChar hf)
    have hstar : c ≠ '*' := by rintro rfl; revert ht; decide
    have hhead : (c :: s).head?.any opensPattern = false := ho
    have hsimple : simple? d (c :: s) = none := by
      rw [simple?, fielded?, pattern?_of_head? hhead, word?]
      simp [hf, isWordChar, ht]
    rw [primary_outcome, hsimple]
    simp [strip?, Ne.symm hc, Ne.symm hstar]

theorem factor_eq_miss : (factor d s).outcome = .miss ↔ (primary d s).outcome = .miss := by
  rw [factor_outcome]
  cases (primary d s).outcome with
  | miss => simp [andThen]
  | fault place => simp [andThen]
  | value q rest => simp [andThen, map_eq_miss, boost?_ne_miss rest]

theorem signed_of_unsigned (hn : keyword? "NOT" s = none) (hp : strip? ['+'] s = none)
    (hm : strip? ['-'] s = none) (d : String) : (signed d s).outcome = .miss := by
  rw [signed_outcome, hn, hp, hm]

theorem clause_of_unsigned (hn : keyword? "NOT" (skipSpace s) = none)
    (hp : strip? ['+'] (skipSpace s) = none) (hm : strip? ['-'] (skipSpace s) = none) (d : String) :
    (clause d s).outcome = (factor d (skipSpace s)).outcome.map fun q => ⟨.should, q⟩ := by
  rw [clause_outcome, signed_of_unsigned hn hp hm]
  rfl

theorem strip?_idle {c : Char} (hc : isTermChar c) (word : List Char) (h : isIdle s) :
    strip? (c :: word) s = none := by
  cases s with
  | nil => rfl
  | cons c' s =>
    have hne : c ≠ c' := by
      rintro rfl
      simp [isIdle, hc] at h
    rw [strip?, if_neg hne]

theorem clause_idle (h : isIdle (skipSpace s)) (d : String) : (clause d s).outcome = .miss := by
  have hn : keyword? "NOT" (skipSpace s) = none := by
    rw [keyword?, show "NOT".toList = ['N', 'O', 'T'] from rfl, strip?_idle (by decide) _ h]
    rfl
  rw [clause_of_unsigned hn (strip?_idle (by decide) _ h) (strip?_idle (by decide) _ h),
    map_eq_miss, factor_eq_miss]
  exact primary_idle h d

theorem conjuncts_ne_miss (d : String) (s : List Char) : (conjuncts d s).outcome ≠ .miss := by
  rw [conjuncts_outcome]
  split
  next => exact nofun
  next t ht =>
    cases hc : (clause d t).outcome with
    | miss => exact nofun
    | fault place => exact nofun
    | value c rest =>
      have hlen : rest.length < s.length := by
        have := Reply.length_lt hc
        have := length_lt_of_skipAnd? ht
        have := length_skipSpace_le s
        omega
      exact mt map_eq_miss.1 (conjuncts_ne_miss d rest)
termination_by s.length

theorem conjunction_eq_miss : (conjunction d s).outcome = .miss ↔ (clause d s).outcome = .miss := by
  rw [conjunction_outcome]
  cases (clause d s).outcome with
  | miss => simp [andThen]
  | fault place => simp [andThen]
  | value c rest => simp [andThen, map_eq_miss, conjuncts_ne_miss d rest]

theorem clause_skipSpace (d : String) (s : List Char) :
    (clause d (skipSpace s)).outcome = (clause d s).outcome := by
  rw [clause_outcome, clause_outcome, skipSpace_skipSpace]

def closes (s : List Char) : Bool := (skipSpace s).head?.all (· = ')')

def NoAlternative (d : String) (s : List Char) : Prop :=
  ∀ cs rest, (alternatives d s).outcome = .value cs rest → closes rest = false

def NoConjunct (d : String) (s : List Char) : Prop :=
  ∀ cs rest, (conjuncts d s).outcome = .value cs rest → NoAlternative d rest

/-- Where a query is read no further though it does not end. -/
structure Halts (d : String) (s : List Char) : Prop where
  conjuncts : (conjuncts d s).outcome = .value [] s
  alternatives : (alternatives d s).outcome = .value [] s
  open_ : closes s = false

theorem Halts.noAlternative (h : Halts d s) : NoAlternative d s := by
  intro cs rest ha
  rw [h.alternatives] at ha
  cases ha
  exact h.open_

theorem Halts.noConjunct (h : Halts d s) : NoConjunct d s := by
  intro cs rest hc
  rw [h.conjuncts] at hc
  cases hc
  exact h.noAlternative

theorem halts_of_miss (hand : ∀ t, skipAnd? (skipSpace s) = some t → (clause d t).outcome = .miss)
    (hor : (clause d (skipOr (skipSpace s))).outcome = .miss) (ho : closes s = false) :
    Halts d s where
  conjuncts := by
    rw [conjuncts_outcome]
    split
    next => rfl
    next t ht => rw [hand t ht]; rfl
  alternatives := alternatives_of_miss (conjunction_eq_miss.2 hor)
  open_ := ho

theorem clause_colon (d : String) (s : List Char) : (clause d (':' :: s)).outcome = .miss :=
  clause_idle (show isIdle (skipSpace (':' :: s)) from rfl) d

theorem head?_ne_colon {t u : List Char} (h : (clause d (t ++ u)).outcome ≠ .miss) :
    t.head? ≠ some ':' := by
  intro hc
  obtain ⟨t, rfl⟩ := List.head?_eq_some_iff.1 hc
  exact h (clause_colon d (t ++ u))

theorem halts_colon (d : String) (s : List Char) : Halts d (':' :: s) :=
  halts_of_miss nofun (clause_colon d s) rfl

theorem closes_of_grows (h : Grows (clause d s).outcome (clause d (s ++ ')' :: u)).outcome) :
    closes s = false := by
  cases hs : closes s with
  | false => rfl
  | true =>
    refine absurd (clause_idle ?_ d) h.2
    rw [skipSpace_close]
    rw [closes] at hs
    cases hskip : skipSpace s with
    | nil => rfl
    | cons c t =>
      rw [hskip] at hs
      obtain rfl : c = ')' := of_decide_eq_true hs
      rfl

theorem primary_of_unfielded {c : Char} (hc : isFieldChar c = false) (ht : isTermChar c)
    (hs : c ≠ '*') (d : String) (s : List Char) : (primary d (c :: s)).outcome =
      match word? false (c :: s) with
      | some (p, rest) => .value (ofPattern d d p) rest
      | none => .miss := by
  have hparen : c ≠ '(' := by rintro rfl; revert ht; decide
  have hhead : (c :: s).head?.any opensPattern = false := opensPattern_of_isTermChar ht
  have hsimple : simple? d (c :: s) =
      (word? false (c :: s)).map fun r => (ofPattern d d r.1, r.2) := by
    rw [simple?, fielded?, pattern?_of_head? hhead]
    simp [hc]
  rw [primary_outcome, hsimple]
  simp only [strip?, if_neg (Ne.symm hparen), if_neg (Ne.symm hs)]
  cases word? false (c :: s) <;> rfl

theorem factor_of_word {word : List Char} {c : Char} (hc : isFieldChar c = false) (hs : c ≠ '*')
    (hw : ∀ c' ∈ c :: word, isTermChar c') (ho : ¬ isOperator (c :: word))
    (ht : t.head?.any isTermChar = false) (hb : t.head? ≠ some '^') (d : String) :
    (factor d (c :: word ++ t)).outcome = .value (ofPattern d d (ofWord (c :: word))) t := by
  have hword : word? false (c :: word ++ t) = some (ofWord (c :: word), t) :=
    word?_append (isWordChar_false ▸ hw) (List.cons_ne_nil c word) ho
      (by rw [isWordChar_false, ht]; exact Bool.false_ne_true)
  rw [List.cons_append] at hword ⊢
  rw [factor_outcome, primary_of_unfielded hc (hw c (.head _)) hs, hword]
  dsimp only
  rw [andThen, boost?_of_head? hb]
  rfl

structure Leads (c : Char) : Prop where
  field : isFieldChar c = false
  term : isTermChar c
  star : c ≠ '*'
  operator : ∀ word, isOperator (c :: word) = false

theorem leads_plus : Leads '+' :=
  ⟨by decide +kernel, by decide, by decide, fun word => by simp [isOperator]⟩

theorem leads_minus : Leads '-' :=
  ⟨by decide +kernel, by decide, by decide, fun word => by simp [isOperator]⟩

theorem Leads.factor_ne_miss {c : Char} (hc : Leads c) (d : String) (s : List Char) :
    (factor d (c :: s)).outcome ≠ .miss := by
  -- with nothing to stand in front of, the sign is read as a word
  have hword : word? false (c :: s) = some (ofWord (c :: s.takeWhile isTermChar),
      (c :: s).dropWhile isTermChar) := by
    rw [word?, isWordChar_false, List.takeWhile_cons, if_pos hc.term]
    exact if_neg (by simp [hc.operator])
  rw [Ne, factor_eq_miss, primary_of_unfielded hc.field hc.term hc.star, hword]
  intro h
  cases h

theorem signed_eq_miss_or (d : String) (s u : List Char) (h : (signed d s).outcome = .miss)
    (hf : (factor d s).outcome = .miss) :
    (signed d (s ++ ')' :: u)).outcome = .miss ∨
      ∃ t, keyword? "NOT" s = some t ∧
        Grows (clause d t).outcome (clause d (t ++ ')' :: u)).outcome := by
  rw [signed_outcome] at h ⊢
  rw [keyword?_close (by decide), strip?_close (by decide), strip?_close (by decide)]
  cases hn : keyword? "NOT" s with
  | some t =>
    rw [hn] at h
    by_cases ht : (clause d (t ++ ')' :: u)).outcome = .miss
    · exact .inl (map_eq_miss.2 ht)
    · exact .inr ⟨t, rfl, map_eq_miss.1 h, ht⟩
  | none =>
    cases hp : strip? ['+'] s with
    | some t =>
      rw [strip?_eq_some_iff.1 hp] at hf
      exact absurd hf (leads_plus.factor_ne_miss d t)
    | none =>
      cases hm : strip? ['-'] s with
      | some t =>
        rw [strip?_eq_some_iff.1 hm] at hf
        exact absurd hf (leads_minus.factor_ne_miss d t)
      | none => exact .inl rfl

theorem grows_of_grows_clause
    (h : Grows (clause d s).outcome (clause d (s ++ ')' :: u)).outcome) :
    Grows (factor d (skipSpace s)).outcome (factor d (skipSpace s ++ ')' :: u)).outcome ∨
      ∃ t, keyword? "NOT" (skipSpace s) = some t ∧
        Grows (clause d t).outcome (clause d (t ++ ')' :: u)).outcome := by
  obtain ⟨hm, hne⟩ := h
  rw [clause_outcome] at hm hne
  rw [skipSpace_close] at hne
  generalize skipSpace s = s at hm hne ⊢
  cases hs : (signed d s).outcome with
  | value c rest => rw [hs] at hm; cases hm
  | fault place => rw [hs] at hm; cases hm
  | miss =>
    rw [hs] at hm
    have hf : (factor d s).outcome = .miss := map_eq_miss.1 hm
    by_cases hf' : (factor d (s ++ ')' :: u)).outcome = .miss
    · refine .inr ((signed_eq_miss_or d s u hs hf).resolve_left fun hs' => hne ?_)
      rw [hs', hf']
      rfl
    · exact .inl ⟨hf, hf'⟩

theorem exists_opener (h : s.head?.any fun c => opensPattern c || c = '(') :
    ∃ c t, s = c :: t ∧ (((c = '"' ∨ c = '[') ∨ c = '\x7b') ∨ c = '(') := by
  cases s with
  | nil => cases h
  | cons c t =>
    simp only [List.head?_cons, Option.any_some, opensPattern, Bool.or_eq_true, decide_eq_true_eq] at h
    exact ⟨c, t, rfl, h⟩

theorem blocked_of_grows
    (h : Grows (factor d s).outcome (factor d (s ++ ')' :: u)).outcome) : Blocked s := by
  obtain ⟨hm, hne⟩ := h
  rw [factor_eq_miss, primary_outcome] at hm
  rw [Ne, factor_eq_miss, primary_outcome] at hne
  rw [strip?_close (by decide), strip?_close (by decide)] at hne
  cases hp : strip? ['('] s with
  | some t => exact .inl (by rw [strip?_eq_some_iff.1 hp]; rfl)
  | none =>
    cases ha : strip? ['*', ':', '*'] s with
    | some t => rw [hp, ha] at hm; cases hm
    | none =>
      cases hs : simple? d s with
      | some q => rw [hp, ha, hs] at hm; cases hm
      | none =>
        refine (simple?_close_of_none hs u).resolve_left fun hs' => hne ?_
        rw [hp, ha, hs']
        rfl

theorem operator_of_fieldChars {word : List Char} (ho : isOperator word)
    (hw : ∀ c ∈ word, isFieldChar c) :
    word = ['A', 'N', 'D'] ∨ word = ['O', 'R'] ∨ word = ['N', 'O', 'T'] := by
  have hand : isFieldChar '&' = false := by decide +kernel
  have hor : isFieldChar '|' = false := by decide +kernel
  simp [isOperator] at ho
  rcases ho with rfl | rfl | rfl | rfl | rfl
  · exact .inl rfl
  · exact .inr (.inl rfl)
  · exact .inr (.inr rfl)
  · exact absurd (hw '&' (.head _)) (Bool.eq_false_iff.1 hand)
  · exact absurd (hw '|' (.head _)) (Bool.eq_false_iff.1 hor)

theorem halts_of_grows (h : Grows (clause d s).outcome (clause d (s ++ ')' :: u)).outcome) :
    Halts d s := by
  have hclause : (clause d (skipSpace s)).outcome = .miss := (clause_skipSpace d s).trans h.1
  have hclose := closes_of_grows h
  suffices (∀ t, skipAnd? (skipSpace s) = some t → (clause d t).outcome = .miss) ∧
      (clause d (skipOr (skipSpace s))).outcome = .miss from
    halts_of_miss this.1 this.2 hclose
  rcases grows_of_grows_clause h with hf | ⟨t, ht, -⟩
  · generalize skipSpace s = r at hf hclause ⊢
    rcases blocked_of_grows hf with ho | ⟨word, t, ho, hw, rfl⟩
    · obtain ⟨c, t, rfl, ((rfl | rfl) | rfl) | rfl⟩ := exists_opener ho <;>
        exact ⟨fun t' ht' => (by cases ht'), hclause⟩
    · obtain rfl | rfl | rfl := operator_of_fieldChars ho hw
      · exact ⟨fun t' ht' => by cases ht'; exact clause_colon d t, hclause⟩
      · exact ⟨fun t' ht' => (by cases ht'), clause_colon d t⟩
      · exact ⟨fun t' ht' => (by cases ht'), hclause⟩
  · rw [(keyword?_eq_some_iff.1 ht).1] at hclause ⊢
    exact ⟨fun t' ht' => (by cases ht'), hclause⟩

theorem noAlternative_of_miss (hor : (clause d (skipOr (skipSpace s))).outcome = .miss)
    (ho : closes s = false) : NoAlternative d s := by
  intro cs rest ha
  rw [alternatives_of_miss (conjunction_eq_miss.2 hor)] at ha
  cases ha
  exact ho

theorem noAlternative_of_halts {c : Clause}
    (hc : (clause d (skipOr (skipSpace s))).outcome = .value c t) (ht : Halts d t) :
    NoAlternative d s := by
  intro cs rest ha
  have hconj : (conjunction d (skipOr (skipSpace s))).outcome = .value (Clause.chain [c]) t := by
    rw [conjunction_outcome, hc, andThen, ht.conjuncts]
    rfl
  rw [alternatives_outcome, hconj, elim, ht.alternatives] at ha
  cases ha
  exact ht.open_

theorem fielded?_eq_none {name : List Char} (hn : ∀ c ∈ name, isFieldChar c)
    (ht : t.head?.any isTermChar = false) (hc : t.head? ≠ some ':') (d : String) :
    fielded? d (name ++ t) = none := by
  have hf : t.head?.any isFieldChar = false := by
    refine Bool.eq_false_iff.2 fun hf => Bool.eq_false_iff.1 ht ?_
    rw [Option.any_eq_true] at hf ⊢
    exact hf.imp fun c => And.imp_right isTermChar_of_isFieldChar
  rw [fielded?, takeWhile_append_eq hn hf, dropWhile_append_eq hn hf]
  split
  next => exact absurd rfl hc
  next => rfl

theorem factor_operator {word : List Char} (ho : isOperator word) (hw : ∀ c ∈ word, isFieldChar c)
    (ht : t.head?.any isTermChar = false) (hc : t.head? ≠ some ':') (d : String) :
    (factor d (word ++ t)).outcome = .miss := by
  have hword : ∀ c ∈ word, isTermChar c := fun c hc => isTermChar_of_isFieldChar (hw c hc)
  have hhead : (word ++ t).head?.any opensPattern = false := by
    cases word with
    | nil => cases ho
    | cons c word => exact opensPattern_of_isTermChar (hword c (.head _))
  have hsimple : simple? d (word ++ t) = none := by
    rw [simple?, fielded?_eq_none hw ht hc, pattern?_of_head? hhead, word?_operator hword ho ht]
    rfl
  rw [factor_eq_miss, primary_outcome, hsimple]
  obtain rfl | rfl | rfl := operator_of_fieldChars ho hw <;> rfl

theorem noAlternative_of_and (ht : t.head?.any isTermChar = false)
    (hs : skipSpace s = ['A', 'N', 'D'] ++ t)
    (h : Grows (clause d (skipSpace t)).outcome (clause d (skipSpace t ++ ')' :: u)).outcome) :
    NoAlternative d s := by
  have hcolon : t.head? ≠ some ':' := head?_ne_colon (u := ')' :: u) (by
    rw [← clause_skipSpace, skipSpace_close]
    exact h.2)
  have hfactor : (factor d (['A', 'N', 'D'] ++ t)).outcome = .miss :=
    factor_operator (by decide) (List.all_eq_true.1 (by decide +kernel)) ht hcolon d
  refine noAlternative_of_miss ?_ (by rw [closes, hs]; rfl)
  rw [hs]
  show (clause d (['A', 'N', 'D'] ++ t)).outcome = .miss
  rw [clause_of_unsigned rfl rfl rfl, map_eq_miss]
  exact hfactor

section

variable (hs : skipSpace s = '&' :: '&' :: t)

include hs

theorem clause_ampersands (d : String) : (clause d (skipOr (skipSpace s))).outcome =
    (factor d ('&' :: '&' :: t)).outcome.map fun q => ⟨.should, q⟩ := by
  rw [hs]
  exact clause_of_unsigned rfl rfl rfl d

theorem noAlternative_of_word {word rest : List Char} (hw : ∀ c ∈ word, isTermChar c)
    (hne : word ≠ []) (he : t = word ++ rest) (hr : rest.head?.any isTermChar = false)
    (hb : rest.head? ≠ some '^') (hh : Halts d rest) : NoAlternative d s := by
  have hf : isFieldChar '&' = false := by decide +kernel
  have hsign : ∀ c ∈ '&' :: '&' :: word, isTermChar c := by
    simp only [List.forall_mem_cons]
    exact ⟨by decide, by decide, hw⟩
  have ho : ¬ isOperator ('&' :: '&' :: word) := by simp [isOperator, hne]
  have hfactor := factor_of_word hf (by decide) hsign ho hr hb d
  rw [List.cons_append, List.cons_append, ← he] at hfactor
  have hclause := clause_ampersands hs d
  rw [hfactor] at hclause
  exact noAlternative_of_halts hclause hh

theorem noAlternative_of_ampersands
    (h : Grows (clause d (skipSpace t)).outcome (clause d (skipSpace t ++ ')' :: u)).outcome) :
    NoAlternative d s := by
  cases ht : t.head?.any isTermChar with
  | false =>
    have hf : isFieldChar '&' = false := by decide +kernel
    have hword : word? false (['&', '&'] ++ t) = none :=
      word?_operator (List.all_eq_true.1 (by decide)) (by decide) ht
    rw [List.cons_append, List.cons_append, List.nil_append] at hword
    refine noAlternative_of_miss ?_ (by rw [closes, hs]; rfl)
    rw [clause_ampersands hs, map_eq_miss, factor_eq_miss,
      primary_of_unfielded hf (by decide) (by decide), hword]
  | true =>
    have hskip := skipSpace_of_isTermChar ht
    rw [hskip] at h
    rcases grows_of_grows_clause h with hg | ⟨rest, hn, hg⟩
    · rw [hskip] at hg
      rcases blocked_of_grows hg with ho | ⟨word, rest, ho, hw, he⟩
      · cases t with
        | nil => cases ht
        | cons c t =>
          have hterm : isTermChar c := ht
          rcases Bool.or_eq_true_iff.1 ho with ho | ho
          · exact absurd ho (Bool.eq_false_iff.1 (opensPattern_of_isTermChar hterm))
          · obtain rfl := of_decide_eq_true ho
            exact absurd hterm (by decide)
      · have hne : word ≠ [] := by rintro rfl; cases ho
        exact noAlternative_of_word hs (fun c hc => isTermChar_of_isFieldChar (hw c hc)) hne he rfl
          (by simp) (halts_colon d rest)
    · rw [hskip] at hn
      obtain ⟨he, hr⟩ := keyword?_eq_some_iff.1 hn
      refine noAlternative_of_word hs (List.all_eq_true.1 (by decide)) (by decide) he hr (fun hb => ?_)
        (halts_of_grows hg)
      obtain ⟨rest, rfl⟩ := List.head?_eq_some_iff.1 hb
      exact hg.2 (clause_idle rfl d)

end

theorem noAlternative_of_grows (ha : skipAnd? (skipSpace s) = some t)
    (h : Grows (clause d t).outcome (clause d (t ++ ')' :: u)).outcome) : NoAlternative d s := by
  obtain ⟨t, ht, rfl⟩ := Option.map_eq_some_iff.1 ha
  rcases Option.or_eq_some_iff.1 ht with hand | ⟨-, hand⟩
  · obtain ⟨hs, ht⟩ := keyword?_eq_some_iff.1 hand
    exact noAlternative_of_and ht hs h
  · exact noAlternative_of_ampersands (strip?_eq_some_iff.1 hand) h

theorem grows_conjunction_iff :
    Grows (conjunction d s).outcome (conjunction d t).outcome ↔
      Grows (clause d s).outcome (clause d t).outcome := by
  rw [Grows, Grows, Ne, conjunction_eq_miss, conjunction_eq_miss]

theorem closes_of_closes_skipOr (h : closes (skipOr (skipSpace s)) = false) : closes s = false := by
  cases hs : closes s with
  | false => rfl
  | true =>
    rw [closes] at hs
    cases hskip : skipSpace s with
    | nil => rw [hskip] at h; cases h
    | cons c t =>
      rw [hskip] at h hs
      obtain rfl : c = ')' := of_decide_eq_true hs
      cases h

theorem halts_of_opens (ho : s.head?.any fun c => opensPattern c || c = '(')
    (hg : Grows (factor d s).outcome (factor d (s ++ ')' :: u)).outcome) : Halts d s := by
  obtain ⟨c, t, rfl, hc⟩ := exists_opener ho
  have hclause (t : List Char) : (clause d (c :: t)).outcome =
      (factor d (c :: t)).outcome.map fun q => ⟨.should, q⟩ := by
    obtain ((rfl | rfl) | rfl) | rfl := hc <;> exact clause_of_unsigned rfl rfl rfl d
  refine halts_of_grows (u := u) ?_
  rw [List.cons_append, Grows, hclause, hclause, Ne, map_eq_miss, map_eq_miss]
  exact hg

theorem Leads.halts {c : Char} (hc : Leads c) {q : Query} {rest : List Char}
    (hg : Grows (factor d t).outcome (factor d (t ++ ')' :: u)).outcome)
    (hf : (factor d (c :: t)).outcome = .value q rest) : Halts d rest := by
  have hread {word r : List Char} (hw : ∀ c ∈ word, isTermChar c) (he : t = word ++ r)
      (hr : r.head?.any isTermChar = false) (hb : r.head? ≠ some '^') : rest = r := by
    have hfactor := factor_of_word hc.field hc.star (List.forall_mem_cons.2 ⟨hc.term, hw⟩)
      (Bool.eq_false_iff.1 (hc.operator word)) hr hb d
    rw [List.cons_append, ← he, hf] at hfactor
    cases hfactor
    rfl
  rcases blocked_of_grows hg with hopen | ⟨word, r, -, hw, he⟩
  · obtain ⟨hterm, hcaret⟩ : t.head?.any isTermChar = false ∧ t.head? ≠ some '^' := by
      obtain ⟨c, t, rfl, ((rfl | rfl) | rfl) | rfl⟩ := exists_opener hopen <;>
        exact ⟨rfl, by simp⟩
    rw [hread (List.forall_mem_nil _) (List.nil_append t).symm hterm hcaret]
    exact halts_of_opens hopen hg
  · rw [hread (fun c hc => isTermChar_of_isFieldChar (hw c hc)) he rfl (by simp)]
    exact halts_colon d r

end Corpus.Query
