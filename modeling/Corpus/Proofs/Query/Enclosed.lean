import Corpus.Proofs.Query.Growth

/-! Queries in parentheses.  What a query is read as where its text ends it is also read as in front of a
closing parenthesis. -/

namespace Corpus.Query

open Text Outcome

variable {d : String} {s t u : List Char}

section Kept

variable (d u)

/-- Readers that read the same in front of a closing parenthesis, but for what they leave a bad rest of. -/
def Keeps {α : Type} (read : List Char → Outcome α) (Bad : List Char → Prop) (s : List Char) : Prop :=
  Extends (')' :: u) Bad (read s) (read (s ++ ')' :: u))

structure Kept (n : Nat) : Prop where
  clause : ∀ s, s.length < n → Keeps u (fun s => (clause d s).outcome) (NoConjunct d) s
  conjuncts : ∀ s, s.length < n → Keeps u (fun s => (conjuncts d s).outcome) (NoAlternative d) s
  alternatives : ∀ s, s.length < n →
    Keeps u (fun s => (alternatives d s).outcome) (closes · = false) s
  disjunction : ∀ s, s.length < n →
    Keeps u (fun s => (disjunction d s).outcome) (closes · = false) s

variable {d u} {n : Nat} (h : Kept d u n)

include h

theorem Kept.primary (hs : s.length ≤ n) :
    Keeps u (fun s => (primary d s).outcome) (·.head? = some ':') s := by
  simp only [Keeps, primary_outcome, strip?_close (show ')' ∉ ['('] by decide),
    strip?_close (show ')' ∉ ['*', ':', '*'] by decide)]
  cases hp : strip? ['('] s with
  | some t =>
    have hlen := length_add_of_strip? hp
    have hspace := length_skipSpace_le t
    dsimp only [Option.map_some]
    rw [skipSpace_close]
    refine (h.disjunction (skipSpace t) (by simp at hlen; omega)).andThen (fun q rest _ => ?_)
      fun q rest hb b rest' hr => ?_
    · simp only [skipSpace_close]
      cases hc : strip? [')'] (skipSpace rest) with
      | none => exact .miss
      | some v =>
        rw [strip?_append _ _ hc]
        exact .value q v
    · cases hc : strip? [')'] (skipSpace rest) with
      | none => rw [hc] at hr; cases hr
      | some v =>
        rw [closes, strip?_eq_some_iff.1 hc] at hb
        cases hb
  | none =>
    cases ha : strip? ['*', ':', '*'] s with
    | some t => exact .value Query.matchAll t
    | none =>
      cases hq : simple? d s with
      | none => exact .miss
      | some p =>
        obtain ⟨q, rest⟩ := p
        intro q' rest' hv
        cases hv
        exact (simple?_close hq u).imp_left fun he => by rw [he]; rfl

theorem Kept.factor (hs : s.length ≤ n) :
    Keeps u (fun s => (factor d s).outcome) (·.head? = some ':') s := by
  simp only [Keeps, factor_outcome]
  refine (h.primary hs).andThen (fun q rest _ => ?_) fun q rest hb b rest' hr => ?_
  · rw [boost?_close]
    exact (Extends.followed _).map _
  · obtain ⟨b', hr, -⟩ := map_eq_value.1 hr
    rw [boost?_of_head? (by rw [hb]; decide)] at hr
    cases hr
    exact hb

theorem Kept.signed (hs : s.length ≤ n) :
    Keeps u (fun s => (signed d s).outcome) (NoConjunct d) s := by
  have hfactor {t : List Char} (ht : t.length ≤ n) :
      Keeps u (fun s => (Query.factor d s).outcome) (NoConjunct d) t :=
    (h.factor ht).imp fun rest hrest => by
      obtain ⟨rest, rfl⟩ := List.head?_eq_some_iff.1 hrest
      exact (halts_colon d rest).noConjunct
  simp only [Keeps, signed_outcome, keyword?_close (show ')' ∉ "NOT".toList by decide),
    strip?_close (show ')' ∉ ['+'] by decide), strip?_close (show ')' ∉ ['-'] by decide)]
  cases hn : keyword? "NOT" s with
  | some t =>
    have hlen := length_lt_of_keyword? (by decide) hn
    exact (h.clause t (by omega)).map _
  | none =>
    cases hp : strip? ['+'] s with
    | some t =>
      have hlen := length_add_of_strip? hp
      exact (hfactor (by omega)).map _
    | none =>
      cases hm : strip? ['-'] s with
      | some t =>
        have hlen := length_add_of_strip? hm
        exact (hfactor (by omega)).map _
      | none => exact .miss

omit h in
theorem noConjunct_of_grows_signed
    (hg : Grows (Query.signed d s).outcome (Query.signed d (s ++ ')' :: u)).outcome) {q : Query}
    {rest : List Char} (hf : (Query.factor d s).outcome = .value q rest) : NoConjunct d rest := by
  obtain ⟨hm, hne⟩ := hg
  rw [signed_outcome] at hm hne
  rw [keyword?_close (by decide), strip?_close (by decide), strip?_close (by decide)] at hne
  cases hn : keyword? "NOT" s with
  | some t =>
    rw [hn] at hm hne
    obtain ⟨rfl, ht⟩ := keyword?_eq_some_iff.1 hn
    have hcolon := head?_ne_colon (mt map_eq_miss.2 hne)
    -- an operator that has nothing to stand in front of is no word either
    have hmiss : (Query.factor d ("NOT".toList ++ t)).outcome = .miss :=
      factor_operator (by decide) (List.all_eq_true.1 (by decide +kernel)) ht hcolon d
    rw [hf] at hmiss
    cases hmiss
  | none =>
    cases hp : strip? ['+'] s with
    | some t =>
      rw [hn, hp] at hm hne
      rw [strip?_eq_some_iff.1 hp] at hf
      exact (leads_plus.halts ⟨map_eq_miss.1 hm, mt map_eq_miss.2 hne⟩ hf).noConjunct
    | none =>
      cases hs : strip? ['-'] s with
      | some t =>
        rw [hn, hp, hs] at hm hne
        rw [strip?_eq_some_iff.1 hs] at hf
        exact (leads_minus.halts ⟨map_eq_miss.1 hm, mt map_eq_miss.2 hne⟩ hf).noConjunct
      | none =>
        rw [hn, hp, hs] at hne
        exact absurd rfl hne

theorem Kept.clause_succ (hs : s.length ≤ n) :
    Keeps u (fun s => (Query.clause d s).outcome) (NoConjunct d) s := by
  have hlen := length_skipSpace_le s
  show Extends _ _ (Query.clause d s).outcome (Query.clause d (s ++ ')' :: u)).outcome
  rw [clause_outcome, clause_outcome, skipSpace_close]
  refine (h.signed (by omega)).elim (fun c rest _ => .value c rest)
    (fun c rest hb b rest' hr => by cases hr; exact hb) (fun _ _ => ?_) fun hg c rest hr => ?_
  · refine Extends.map ((h.factor (by omega)).imp fun rest hrest => ?_) _
    obtain ⟨rest, rfl⟩ := List.head?_eq_some_iff.1 hrest
    exact (halts_colon d rest).noConjunct
  · obtain ⟨q, hq, -⟩ := map_eq_value.1 hr
    exact noConjunct_of_grows_signed hg hq

theorem Kept.conjuncts_succ (hs : s.length ≤ n) :
    Keeps u (fun s => (Query.conjuncts d s).outcome) (NoAlternative d) s := by
  have hlen := length_skipSpace_le s
  show Extends _ _ (Query.conjuncts d s).outcome (Query.conjuncts d (s ++ ')' :: u)).outcome
  rw [conjuncts_outcome d s, conjuncts_outcome d (s ++ ')' :: u), skipSpace_close, skipAnd?_close]
  cases ha : skipAnd? (skipSpace s) with
  | none => exact .value [] s
  | some t =>
    have hlen' := length_lt_of_skipAnd? ha
    refine (h.clause t (by omega)).elim (fun c rest hc => ?_) (fun _ _ hb _ _ => of_map_eq_value hb)
      (fun _ _ => .value [] s) fun hg b rest hr => ?_
    · have hlen'' := Reply.length_lt hc
      exact (h.conjuncts rest (by omega)).map _
    · cases hr
      exact noAlternative_of_grows ha hg

theorem Kept.conjunction (hs : s.length ≤ n) :
    Keeps u (fun s => (conjunction d s).outcome) (NoAlternative d) s := by
  simp only [Keeps, conjunction_outcome]
  refine (h.clause_succ hs).andThen (fun c rest hc => ?_) fun _ _ hb _ _ => of_map_eq_value hb
  have hlen := Reply.length_lt hc
  exact (h.conjuncts rest (by omega)).map _

theorem Kept.alternatives_succ (hs : s.length ≤ n) :
    Keeps u (fun s => (Query.alternatives d s).outcome) (closes · = false) s := by
  show Extends _ _ (Query.alternatives d s).outcome (Query.alternatives d (s ++ ')' :: u)).outcome
  rw [alternatives_outcome d s, alternatives_outcome d (s ++ ')' :: u), skipSpace_close,
    skipOr_close]
  have hlen := Nat.le_trans (length_skipOr_le (skipSpace s)) (length_skipSpace_le s)
  refine (h.conjunction (by omega)).elim (fun c rest hc => ?_) (fun _ _ hb _ _ => of_map_eq_value hb)
    (fun _ _ => .value [] s) fun hg b rest hr => ?_
  · have hlen' := Reply.length_lt hc
    exact (h.alternatives rest (by omega)).map _
  · cases hr
    exact closes_of_closes_skipOr (closes_of_grows (grows_conjunction_iff.1 hg))

theorem Kept.disjunction_succ (hs : s.length ≤ n) :
    Keeps u (fun s => (Query.disjunction d s).outcome) (closes · = false) s := by
  simp only [Keeps, disjunction_outcome]
  refine (h.conjunction hs).andThen (fun c rest hc => ?_) fun _ _ hb _ _ => of_map_eq_value hb
  have hlen := Reply.length_lt hc
  exact (h.alternatives_succ (by omega)).map _

omit h

theorem kept (d : String) (u : List Char) (n : Nat) : Kept d u n := by
  induction n with
  | zero => exact ⟨nofun, nofun, nofun, nofun⟩
  | succ n ih =>
    exact ⟨fun s hs => ih.clause_succ (Nat.le_of_lt_succ hs),
      fun s hs => ih.conjuncts_succ (Nat.le_of_lt_succ hs),
      fun s hs => ih.alternatives_succ (Nat.le_of_lt_succ hs),
      fun s hs => ih.disjunction_succ (Nat.le_of_lt_succ hs)⟩

end Kept

theorem disjunction_close {q : Query} {rest : List Char}
    (h : (disjunction d s).outcome = .value q rest) (hr : closes rest) (u : List Char) :
    (disjunction d (s ++ ')' :: u)).outcome = .value q (rest ++ ')' :: u) :=
  ((kept d u _).disjunction s (Nat.lt_add_one _) q rest h).resolve_right
    fun hr' => Bool.eq_false_iff.1 hr' hr

section Compose

variable {text text' : String} {q q' : Query}

theorem factor_enclosed (ht : trim text.toList ≠ []) (h : parse d text = .ok q)
    (hu : u.head? ≠ some '^') :
    (factor d ('(' :: (text.toList ++ ')' :: u))).outcome = .value q u := by
  rw [parse_eq, if_neg ht] at h
  cases hd : (disjunction d (skipSpace text.toList)).outcome with
  | miss => rw [hd] at h; cases h
  | fault place => rw [hd] at h; cases h
  | value q' rest =>
    rw [hd] at h
    dsimp only at h
    split at h
    next hrest =>
      cases h
      have hprimary : (primary d ('(' :: (text.toList ++ ')' :: u))).outcome = .value q u := by
        rw [primary_outcome,
          show strip? ['('] ('(' :: (text.toList ++ ')' :: u)) = some (text.toList ++ ')' :: u) from rfl]
        dsimp only
        rw [skipSpace_close, disjunction_close hd (by rw [closes, hrest]; rfl), andThen,
          skipSpace_close, hrest]
        rfl
      rw [factor_outcome, hprimary, andThen, boost?_of_head? hu]
      rfl
    next => cases h

theorem clause_enclosed (ht : trim text.toList ≠ []) (h : parse d text = .ok q)
    (hu : u.head? ≠ some '^') :
    (clause d ('(' :: (text.toList ++ ')' :: u))).outcome = .value ⟨.should, q⟩ u := by
  have hfactor := factor_enclosed ht h hu
  rw [clause_of_unsigned rfl rfl rfl]
  exact map_eq_value.2 ⟨q, hfactor, rfl⟩

theorem parse_of_disjunction {c : Char} (hs : text.toList = c :: s) (hb : isBlank c = false)
    (hc : isSpace c = false) (h : (disjunction d (c :: s)).outcome = .value q []) :
    parse d text = .ok q := by
  rw [parse_eq, hs, if_neg (trim_ne_nil hb), skipSpace, List.dropWhile_cons_of_neg (by simp [hc]), h]
  rfl

theorem conjuncts_nil (d : String) : (conjuncts d []).outcome = .value [] [] := by
  rw [conjuncts_outcome]
  rfl

theorem disjunction_of_conjunction {c : Clause} (h : (conjunction d s).outcome = .value c []) :
    (disjunction d s).outcome = .value (Clause.combine [c]) [] := by
  have hnil : (alternatives d []).outcome = .value [] [] := alternatives_of_miss conjunction_nil
  rw [disjunction_outcome, h, andThen, hnil]
  rfl

theorem conjunction_pair {c c' : Clause} {t' : List Char} (hc : (clause d s).outcome = .value c t)
    (ht : skipAnd? (skipSpace t) = some t') (hc' : (clause d t').outcome = .value c' []) :
    (conjunction d s).outcome = .value (Clause.chain [c, c']) [] := by
  have hconjuncts : (conjuncts d t).outcome = .value [c'] [] := by
    rw [conjuncts_outcome, ht]
    dsimp only
    rw [hc', elim, conjuncts_nil]
    rfl
  rw [conjunction_outcome, hc, andThen, hconjuncts]
  rfl

theorem clause_not {c : Clause} (h : (clause d s).outcome = .value c t) (hs : s.head? = some ' ') :
    (clause d (['N', 'O', 'T'] ++ s)).outcome = .value ⟨.mustNot, c.query⟩ t := by
  have hn : keyword? "NOT" (['N', 'O', 'T'] ++ s) = some s :=
    keyword?_eq_some_iff.2 ⟨rfl, by rw [hs]; rfl⟩
  rw [clause_outcome, show skipSpace (['N', 'O', 'T'] ++ s) = ['N', 'O', 'T'] ++ s from rfl,
    signed_outcome, hn]
  dsimp only
  rw [h]
  rfl

variable (ht : trim text.toList ≠ []) (ht' : trim text'.toList ≠ []) (h : parse d text = .ok q)
  (h' : parse d text' = .ok q')

include ht ht' h h'

theorem parse_and : parse d ("(" ++ text ++ ") AND (" ++ text' ++ ")") =
    .ok (.bool [q, q'] [] [] none) := by
  have hfirst := clause_enclosed ht h (u := [' ', 'A', 'N', 'D', ' ', '('] ++ (text'.toList ++ [')']))
    (by simp)
  have hlast := clause_enclosed ht' h' (u := []) (by simp)
  exact parse_of_disjunction (by simp) rfl rfl
    (disjunction_of_conjunction (conjunction_pair hfirst rfl hlast))

theorem parse_or : parse d ("(" ++ text ++ ") OR (" ++ text' ++ ")") =
    .ok (.bool [] [q, q'] [] none) := by
  have hfirst := clause_enclosed ht h (u := [' ', 'O', 'R', ' ', '('] ++ (text'.toList ++ [')']))
    (by simp)
  have hlast := clause_enclosed ht' h' (u := []) (by simp)
  exact parse_of_disjunction (by simp) rfl rfl (disjunction_pair (conjunction_of_clause hfirst rfl)
    (conjunction_of_clause hlast rfl) conjunction_nil)

theorem parse_beside : parse d ("(" ++ text ++ ") (" ++ text' ++ ")") =
    .ok (.bool [] [q, q'] [] none) := by
  have hfirst := clause_enclosed ht h (u := [' ', '('] ++ (text'.toList ++ [')'])) (by simp)
  have hlast := clause_enclosed ht' h' (u := []) (by simp)
  exact parse_of_disjunction (by simp) rfl rfl (disjunction_pair (conjunction_of_clause hfirst rfl)
    (conjunction_of_clause hlast rfl) conjunction_nil)

theorem parse_andNot : parse d ("(" ++ text ++ ") AND NOT (" ++ text' ++ ")") =
    .ok (.bool [q] [] [q'] none) := by
  have hfirst := clause_enclosed ht h
    (u := [' ', 'A', 'N', 'D', ' ', 'N', 'O', 'T', ' ', '('] ++ (text'.toList ++ [')'])) (by simp)
  have hlast := clause_not (s := ' ' :: '(' :: (text'.toList ++ [')']))
    ((clause_skipSpace d _).symm.trans (clause_enclosed ht' h' (u := []) (by simp))) rfl
  exact parse_of_disjunction (by simp) rfl rfl
    (disjunction_of_conjunction (conjunction_pair hfirst rfl hlast))

omit ht' h' in
theorem parse_not : parse d ("NOT (" ++ text ++ ")") = .ok (.bool [] [] [q] none) := by
  have hclause := clause_not (s := ' ' :: '(' :: (text.toList ++ [')']))
    ((clause_skipSpace d _).symm.trans (clause_enclosed ht h (u := []) (by simp))) rfl
  exact parse_of_disjunction (by simp) rfl rfl
    (disjunction_of_conjunction (conjunction_of_clause hclause rfl))

end Compose

end Corpus.Query
