import Corpus.Proofs.Query.Enclosed
import Corpus.Proofs.Query.Writing
import Corpus.Record

/-! Reading what was written.  Each part of a text is followed by a space, by what closes the part around it
or by the end, and none of these can be a part of it. -/

namespace Corpus

open Text Number

def GoesOn (marks s : List Char) : Prop := s.head?.all (marks.contains ·)

theorem GoesOn.any_head? {marks s : List Char} (h : GoesOn marks s) {p : Char → Bool}
    (hp : marks.any p = false) : s.head?.any p = false := by
  cases s with
  | nil => rfl
  | cons c s => exact Bool.eq_false_iff.2 (List.any_eq_false.1 hp c (List.contains_iff_mem.1 h))

theorem GoesOn.head?_ne {marks s : List Char} (h : GoesOn marks s) {c : Char} (hc : c ∉ marks) :
    s.head? ≠ some c := by
  intro he
  rw [GoesOn, he] at h
  exact hc (List.contains_iff_mem.1 h)

namespace Query

variable {d : String} {decimal : Binary32 → String} {s u : List Char}

abbrev Ends (s : List Char) : Prop := GoesOn [' ', ')'] s

abbrev Stops (s : List Char) : Prop := GoesOn [' ', ')', '^'] s

section Decimals

theorem readSign_append {sign : List Char} (hs : IsSign sign) (hp : s.head? ≠ some '+')
    (hm : s.head? ≠ some '-') : (readSign (sign ++ s)).2 = s := by
  obtain rfl | rfl | rfl := hs
  · cases s with
    | nil => rfl
    | cons c s =>
      rw [List.nil_append, readSign.eq_def]
      split
      next he => cases he; exact absurd rfl hm
      next he => cases he; exact absurd rfl hp
      next => rfl
  · rfl
  · rfl

theorem head?_ne_of_isDigit {digits : List Char} (h : ∀ c ∈ digits, isDigit c) (hne : digits ≠ [])
    {c : Char} (hc : isDigit c = false) (t : List Char) : (digits ++ t).head? ≠ some c := by
  obtain ⟨c', digits, rfl⟩ := List.exists_cons_of_ne_nil hne
  intro he
  cases he
  exact Bool.eq_false_iff.1 hc (h c (.head _))

theorem digitsEnd?_append {mantissa : List Char} (hm : IsMantissa mantissa)
    (hs : s.head?.any isDigit = false) (hp : s.head? ≠ some '.') :
    digitsEnd? (mantissa ++ s) = some s := by
  cases hm with
  | whole hne h =>
    obtain ⟨c, digits, rfl⟩ := List.exists_cons_of_ne_nil hne
    rw [digitsEnd?, takeWhile_append_eq h hs, dropWhile_append_eq h hs]
    split
    next he => cases he
    next he _ => cases he
    next => exact absurd rfl hp
    next => rfl
  | @pointed digits fraction hne h hf =>
    obtain ⟨c, digits, rfl⟩ := List.exists_cons_of_ne_nil hne
    have hpoint : ('.' :: (fraction ++ s)).head?.any isDigit = false :=
      show isDigit '.' = false by decide
    rw [List.append_assoc, @List.cons_append _ _ fraction, digitsEnd?, takeWhile_append_eq h hpoint,
      dropWhile_append_eq h hpoint]
    exact congrArg some (dropWhile_append_eq hf hs)
  | @fraction fraction hne hf =>
    obtain ⟨c, fraction, rfl⟩ := List.exists_cons_of_ne_nil hne
    have hc : isDigit c := hf c (.head _)
    rw [digitsEnd?]
    simp only [List.cons_append, List.takeWhile_cons, List.dropWhile_cons,
      show isDigit '.' = false by decide, List.head?_cons, Option.any_some, hc, if_true,
      Bool.false_eq_true, if_false]
    exact congrArg some (dropWhile_append_eq (List.forall_mem_cons.1 hf).2 hs)

theorem exponentEnd_append {exponent : List Char} (he : IsExponent exponent) (hs : Ends s) :
    (exponentEnd (exponent ++ s)).outcome = .value () s := by
  cases he with
  | none =>
    cases s with
    | nil => rfl
    | cons c s =>
      have hc : isExponentMark c = false := hs.any_head? (p := isExponentMark) (by decide)
      rw [List.nil_append, exponentEnd, if_neg (by simp [hc])]
      rfl
  | @marked c sign digits hc hsign hne h =>
    have hread := readSign_append (s := digits ++ s) hsign
      (head?_ne_of_isDigit h hne (by decide) s) (head?_ne_of_isDigit h hne (by decide) s)
    have hdigit : (digits ++ s).head?.any isDigit := by
      obtain ⟨c', digits, rfl⟩ := List.exists_cons_of_ne_nil hne
      exact h c' (.head _)
    rw [List.cons_append, List.append_assoc, exponentEnd, if_pos hc]
    simp only [dropExponent, hread, if_pos hdigit]
    exact congrArg (Outcome.value ()) (dropWhile_append_eq h (hs.any_head? (by decide)))

theorem boost?_decimal {text : List Char} (ht : IsDecimal text) (hs : Ends s) :
    (boost? ('^' :: (text ++ s))).outcome = .value (Binary.ofText? (String.ofList text)) s := by
  obtain @⟨sign, mantissa, exponent, hsign, hm, he⟩ := ht
  have hrest : (exponent ++ s).head?.any isDigit = false ∧ (exponent ++ s).head? ≠ some '.' := by
    cases he with
    | none => exact ⟨hs.any_head? (by decide), hs.head?_ne (by decide)⟩
    | @marked c sign digits hc =>
      rw [isExponentMark, Bool.or_eq_true, decide_eq_true_eq, decide_eq_true_eq] at hc
      obtain rfl | rfl := hc <;> exact ⟨rfl, by simp⟩
  have hhead : ∀ c, isDigit c = false → c ≠ '.' → (mantissa ++ (exponent ++ s)).head? ≠ some c := by
    intro c hc hp
    cases hm with
    | whole hne h => exact head?_ne_of_isDigit h hne hc _
    | pointed hne h =>
      rw [List.append_assoc]
      exact head?_ne_of_isDigit h hne hc _
    | fraction => exact fun he => hp (Option.some.inj he).symm
  have hread := readSign_append hsign (hhead '+' (by decide) (by decide))
    (hhead '-' (by decide) (by decide))
  rw [List.append_assoc, List.append_assoc, boost?_caret, hread, digitsEnd?_append hm hrest.1 hrest.2]
  simp only [exponentEnd_append he hs, Outcome.andThen]
  rw [← List.append_assoc mantissa, ← List.append_assoc sign, List.length_append,
    Nat.add_sub_cancel, List.take_left]

theorem stands_text {b : Binary32} (h : b.isFinite) : Stands b b.text := by
  refine ⟨?_, Binary.ofText?_text_self (by decide) (by decide) h⟩
  have hbody : IsMantissa b.decimal.positional.toList := by
    obtain ⟨hwhole, hfraction, hne⟩ := b.decimal.isDigit_of_mem_split
    rw [Decimal.positional]
    generalize b.decimal.split = parts at hwhole hfraction hne
    obtain ⟨whole, fraction⟩ := parts
    cases fraction with
    | nil =>
      rw [String.toList_ofList]
      exact .whole hne hwhole
    | cons c fraction =>
      rw [String.toList_ofList]
      exact .pointed hne hwhole hfraction
  have hdecimal {sign : List Char} (hs : IsSign sign) :
      IsDecimal (sign ++ b.decimal.positional.toList) := by
    have h := IsDecimal.mk hs hbody .none
    rwa [List.append_nil] at h
  rw [Binary.text_eq h, Binary.signed]
  split
  next =>
    rw [String.toList_append]
    exact hdecimal (.inr (.inr rfl))
  next => exact hdecimal (.inl rfl)

theorem boost?_write {boost : Option Binary32} (hb : ∀ b ∈ boost, Stands b (decimal b))
    (hs : Ends s) : (boost? (writeBoost decimal boost ++ s)).outcome = .value boost s := by
  cases boost with
  | none => exact boost?_of_head? (hs.head?_ne (by decide))
  | some b =>
    obtain ⟨hd, hb⟩ := hb b rfl
    rw [writeBoost, Option.elim_some, List.cons_append, boost?_decimal hd hs, String.ofList_toList, hb]

theorem stops_writeBoost (hs : Ends s) (boost : Option Binary32) :
    Stops (writeBoost decimal boost ++ s) := by
  cases boost with
  | some b => rfl
  | none =>
    cases s with
    | nil => rfl
    | cons c s =>
      have hc := List.contains_iff_mem.1 (show [' ', ')'].contains c from hs)
      exact List.contains_iff_mem.2 (by simp at hc ⊢; exact hc.imp_right .inl)

end Decimals

section Patterns

theorem isWordChar_of_isRun {word : List Char} (h : Pattern.IsRun word) :
    ∀ c ∈ word, isWordChar true c := fun c hc => by
  simpa [isWordChar] using h c hc

theorem isWild_eq_false_of_isOperator {word : List Char} (h : isOperator word) :
    ∀ c ∈ word, isWild c = false := by
  have htame : word.any isWild = false := by
    simp only [isOperator, List.any_eq_true, List.mem_cons, List.not_mem_nil, or_false,
      decide_eq_true_eq] at h
    obtain ⟨_, rfl | rfl | rfl | rfl | rfl, rfl⟩ := h <;> decide
  exact fun c hc => Bool.eq_false_iff.2 (List.any_eq_false.1 htame c hc)

theorem pattern?_of_run {word : List Char} (hw : Pattern.IsRun word) (hne : word ≠ [])
    (ho : isOperator word = false) (hs : Stops s) :
    pattern? true (word ++ s) = some (ofWord word, s) := by
  have hword := isWordChar_of_isRun hw
  have hhead : (word ++ s).head?.any opensPattern = false := by
    obtain ⟨c, word, rfl⟩ := List.exists_cons_of_ne_nil hne
    obtain hc | rfl := hw c (.head _)
    · exact opensPattern_of_isTermChar hc
    · rfl
  rw [pattern?_of_head? hhead]
  exact word?_append hword hne (Bool.eq_false_iff.1 ho)
    (Bool.eq_false_iff.1 (hs.any_head? (by decide)))

theorem pattern?_phrase {colons : Bool} {text : List Char} (h : '"' ∉ text) :
    pattern? colons ('"' :: (text ++ '"' :: s)) = some (.phrase (String.ofList text), s) := by
  have ht : ∀ c ∈ text, decide (c ≠ '"') = true := fun c hc =>
    decide_eq_true fun he => h (he ▸ hc)
  rw [pattern?, dropWhile_append_eq ht (by simp), takeWhile_append_eq ht (by simp)]

theorem bound_writeBound {bound : Option String} (h : Pattern.IsBound bound) :
    Query.bound (Pattern.writeBound bound) = bound := by
  cases bound with
  | none => rfl
  | some text =>
    obtain ⟨-, hstar, -⟩ := h text rfl
    have hne : text.toList ≠ ['*'] := fun he => hstar (String.toList_inj.1 he)
    rw [Pattern.writeBound, Option.elim_some, Query.bound, if_neg hne, String.ofList_toList]

theorem boundText?_writeBound {bound : Option String} (h : Pattern.IsBound bound)
    (hs : s.head?.any isBoundChar = false) :
    boundText? (Pattern.writeBound bound ++ s) = some (Pattern.writeBound bound, s) := by
  obtain ⟨hne, hchars⟩ : Pattern.writeBound bound ≠ [] ∧
      ∀ c ∈ Pattern.writeBound bound, isBoundChar c := by
    cases bound with
    | none => exact ⟨List.cons_ne_nil _ _, List.forall_mem_singleton.2 (by decide)⟩
    | some text =>
      obtain ⟨hne, -, hchars⟩ := h text rfl
      exact ⟨fun he => hne (String.toList_eq_nil_iff.1 he), hchars⟩
  rw [boundText?, takeWhile_append_eq hchars hs, dropWhile_append_eq hchars hs]
  split
  next he => exact absurd he hne
  next => rfl

theorem skipSpace_writeBound {bound : Option String} (h : Pattern.IsBound bound) (s : List Char) :
    skipSpace (Pattern.writeBound bound ++ s) = Pattern.writeBound bound ++ s := by
  cases bound with
  | none => rfl
  | some text =>
    obtain ⟨hne, -, hchars⟩ := h text rfl
    rw [Pattern.writeBound, Option.elim_some]
    cases ht : text.toList with
    | nil => exact absurd (String.toList_eq_nil_iff.1 ht) hne
    | cons c word =>
      have hc : isBoundChar c := hchars c (by rw [ht]; exact .head _)
      refine List.dropWhile_cons_of_neg fun hspace => ?_
      simp only [isSpace, Bool.or_eq_true, decide_eq_true_eq] at hspace
      obtain ((rfl | rfl) | rfl) | rfl := hspace <;> exact absurd hc (by decide)

theorem range?_write {lower upper : Option String} (hl : Pattern.IsBound lower)
    (hu : Pattern.IsBound upper) (includeLower includeUpper : Bool) :
    range? includeLower (Pattern.writeBound lower ++ ' ' :: 'T' :: 'O' :: ' ' ::
        (Pattern.writeBound upper ++ (if includeUpper then ']' else '\x7d') :: s)) =
      some (.range lower upper includeLower includeUpper, s) := by
  have hlower := boundText?_writeBound hl (s := ' ' :: 'T' :: 'O' :: ' ' ::
    (Pattern.writeBound upper ++ (if includeUpper then ']' else '\x7d') :: s))
      (show isBoundChar ' ' = false by decide)
  have hupper := boundText?_writeBound hu
    (s := (if includeUpper then ']' else '\x7d') :: s)
      (show isBoundChar (if includeUpper then ']' else '\x7d') = false by
        cases includeUpper <;> decide)
  have hspace {c : Char} (hc : isSpace c = false) (t : List Char) :
      skipSomeSpace? (' ' :: c :: t) = some (c :: t) := by
    simp [skipSomeSpace?, skipSpace, hc, show isSpace ' ' from rfl]
  have hskip : skipSomeSpace? (' ' :: (Pattern.writeBound upper ++
      (if includeUpper then ']' else '\x7d') :: s)) =
        some (Pattern.writeBound upper ++ (if includeUpper then ']' else '\x7d') :: s) :=
    congrArg some (skipSpace_writeBound hu _)
  simp only [range?, skipSpace_writeBound hl, hlower, hspace (show isSpace 'T' = false from rfl),
    hskip, hupper, Option.bind_eq_bind, Option.bind_some, strip?, if_true]
  cases includeUpper <;> simp [skipSpace, isSpace, bound_writeBound hl, bound_writeBound hu]

theorem ofWord_of_tame {word : List Char} (h : ∀ c ∈ word, isWild c = false) :
    ofWord word = .term (String.ofList word) := by
  have hdrop : word.dropWhile (! isWild ·) = [] :=
    List.dropWhile_eq_nil_iff.2 fun c hc => by simp [h c hc]
  rw [ofWord, hdrop]

theorem ofWord_star {word : List Char} (h : ∀ c ∈ word, isWild c = false) :
    ofWord (word ++ ['*']) = .prefixed (String.ofList word) := by
  have h' : ∀ c ∈ word, (! isWild c) = true := fun c hc => by simp [h c hc]
  rw [ofWord, dropWhile_append_eq h' rfl, literalPart, takeWhile_append_eq h' rfl]
  rfl

theorem ofWord_of_wild {word : List Char} (h : ∃ c ∈ word, isWild c)
    (hp : ∀ start, (∀ c ∈ start, isWild c = false) → word ≠ start ++ ['*']) :
    ofWord word = .wildcard (String.ofList word) := by
  have hsplit := List.takeWhile_append_dropWhile (p := (! isWild ·)) (l := word)
  rw [ofWord]
  split
  next hdrop =>
    obtain ⟨c, hc, hw⟩ := h
    have := List.dropWhile_eq_nil_iff.1 hdrop c hc
    simp [hw] at this
  next hdrop =>
    rw [hdrop] at hsplit
    refine absurd hsplit.symm (hp _ fun c hc => ?_)
    simpa using List.mem_takeWhile_imp hc
  next => rfl

theorem pattern?_write {name : String} {pattern : Pattern} (h : pattern.WellFormed d name)
    (hs : Stops s) : pattern? true (pattern.write ++ s) = some (pattern, s) := by
  cases pattern with
  | term value =>
    obtain ⟨hne, hrun, htame, ho⟩ := h
    have hoperator : isOperator value.toList = false := by
      refine Bool.eq_false_iff.2 fun hop => ho ?_
      simp only [isOperator, List.any_eq_true, decide_eq_true_eq] at hop
      obtain ⟨word, hword, he⟩ := hop
      exact String.toList_inj.1 he ▸ hword
    rw [Pattern.write, pattern?_of_run hrun (mt String.toList_eq_nil_iff.1 hne) hoperator hs,
      ofWord_of_tame htame, String.ofList_toList]
  | phrase text =>
    rw [Pattern.write, List.cons_append, List.append_assoc]
    exact (pattern?_phrase h).trans (by rw [String.ofList_toList]; rfl)
  | prefixed start =>
    obtain ⟨hrun, htame, -⟩ := h
    have hrun' : Pattern.IsRun (start.toList ++ ['*']) := by
      simpa [Pattern.IsRun, or_imp, forall_and, show isTermChar '*' by decide] using hrun
    have hoperator : isOperator (start.toList ++ ['*']) = false := Bool.eq_false_iff.2 fun hop =>
      absurd (isWild_eq_false_of_isOperator hop '*' (by simp)) (by decide)
    rw [Pattern.write, pattern?_of_run hrun' (by simp) hoperator hs, ofWord_star htame,
      String.ofList_toList]
  | wildcard glob =>
    obtain ⟨hrun, hwild, hprefix⟩ := h
    obtain ⟨c, hc, hw⟩ := hwild
    have hoperator : isOperator glob.toList = false := Bool.eq_false_iff.2 fun hop =>
      Bool.eq_false_iff.1 (isWild_eq_false_of_isOperator hop c hc) hw
    rw [Pattern.write, pattern?_of_run hrun (List.ne_nil_of_mem hc) hoperator hs,
      ofWord_of_wild ⟨c, hc, hw⟩ hprefix, String.ofList_toList]
  | range lower upper includeLower includeUpper =>
    have hrange := range?_write (s := s) h.1 h.2 includeLower includeUpper
    rw [Pattern.write]
    simp only [List.cons_append, List.append_assoc, List.nil_append]
    cases includeLower with
    | true => exact hrange
    | false => exact hrange

end Patterns

section Clauses

structure Opens (s : List Char) : Prop where
  space : skipSpace s = s
  and_ : skipAnd? s = none
  or_ : skipOr s = s

structure Unsigned (s : List Char) : Prop extends Opens s where
  not_ : keyword? "NOT" s = none
  plus : strip? ['+'] s = none
  minus : strip? ['-'] s = none

theorem keyword?_of_isName {name : String} (hn : IsName name) (word : String)
    (hw : word ∈ ["AND", "OR", "NOT"]) (s : List Char) :
    keyword? word (name.toList ++ ':' :: s) = none := by
  refine Option.eq_none_iff_forall_ne_some.2 fun t ht => hn.2.2 ?_
  obtain ⟨he, ht⟩ := keyword?_eq_some_iff.1 ht
  have hfield : ∀ c ∈ word.toList, isFieldChar c := by
    have hall : ∀ word ∈ ["AND", "OR", "NOT"], word.toList.all isFieldChar := by decide +kernel
    exact List.all_eq_true.1 (hall word hw)
  have hterm : t.head?.any isFieldChar = false := by
    cases t with
    | nil => rfl
    | cons c t => exact Bool.eq_false_iff.2 fun hc =>
        Bool.eq_false_iff.1 ht (isTermChar_of_isFieldChar hc)
  have hcolon : (':' :: s).head?.any isFieldChar = false :=
    show isFieldChar ':' = false by decide +kernel
  -- both are all that stands before the first character that no name has
  have hname := takeWhile_append_eq hn.2.1 hcolon
  rw [he, takeWhile_append_eq hfield hterm] at hname
  rwa [← String.toList_inj.1 hname]

theorem unsigned_of_isName {name : String} (hn : IsName name) (s : List Char) :
    Unsigned (name.toList ++ ':' :: s) := by
  have hand := keyword?_of_isName hn "AND" (by decide) s
  have hor := keyword?_of_isName hn "OR" (by decide) s
  have hnot := keyword?_of_isName hn "NOT" (by decide) s
  obtain ⟨c, name', hc⟩ := List.exists_cons_of_ne_nil (mt String.toList_eq_nil_iff.1 hn.1)
  have hfield : isFieldChar c := hn.2.1 c (by rw [hc]; exact .head _)
  rw [hc, List.cons_append] at hand hor hnot ⊢
  have hmarks : ['&', '|', '+', '-'].all (! isFieldChar ·) := by decide +kernel
  have hstrip {c' : Char} (hc' : c' ∈ ['&', '|', '+', '-']) (word : List Char) :
      strip? (c' :: word) (c :: (name' ++ ':' :: s)) = none := by
    refine if_neg fun he => ?_
    have := List.all_eq_true.1 hmarks c' hc'
    simp [he, hfield] at this
  refine ⟨⟨?_, ?_, ?_⟩, hnot, hstrip (by decide) _, hstrip (by decide) _⟩
  · exact skipSpace_of_isTermChar (isTermChar_of_isFieldChar hfield)
  · rw [skipAnd?, hand, hstrip (by decide)]
    rfl
  · rw [skipOr, hor, hstrip (by decide)]
    rfl

theorem Unsigned.clause (h : Unsigned s) (d : String) :
    (clause d s).outcome = (factor d s).outcome.map fun q => ⟨.should, q⟩ := by
  have hclause := clause_of_unsigned (s := s) (by rw [h.space]; exact h.not_)
    (by rw [h.space]; exact h.plus) (by rw [h.space]; exact h.minus) d
  rwa [h.space] at hclause

theorem unsigned_write {q : Query} (h : q.WellFormed d decimal) (s : List Char) :
    Unsigned (q.write decimal ++ s) := by
  cases h with
  | matchAll => exact ⟨⟨rfl, rfl, rfl⟩, rfl, rfl, rfl⟩
  | field hn =>
    rw [write, List.append_assoc]
    exact unsigned_of_isName hn _
  | bool => exact ⟨⟨rfl, rfl, rfl⟩, rfl, rfl, rfl⟩

end Clauses

end Query

namespace Occur

def sign : Occur → List Char
  | .must => ['+']
  | .should => []
  | .mustNot => ['-']

end Occur

namespace Clause

open Query

variable {d : String} {decimal : Binary32 → String} {s : List Char}

def write (decimal : Binary32 → String) (c : Clause) : List Char :=
  c.occur.sign ++ c.query.write decimal

def ofBool (must should mustNot : List Query) : List Clause :=
  must.map (⟨.must, ·⟩) ++ (should.map (⟨.should, ·⟩) ++ mustNot.map (⟨.mustNot, ·⟩))

theorem writeEach_eq (occur : Occur) (qs : List Query) :
    writeEach decimal occur.sign qs = (qs.map (Clause.mk occur)).map (write decimal) := by
  induction qs with
  | nil => rfl
  | cons q rest ih => rw [writeEach, ih]; rfl

theorem pick_map (occur occur' : Occur) (qs : List Query) :
    pick occur (qs.map (Clause.mk occur')) = if occur' = occur then qs else [] := by
  by_cases h : occur' = occur <;> simp [pick, List.filter_map, Function.comp_def, h]

theorem pick_append (occur : Occur) (cs cs' : List Clause) :
    pick occur (cs ++ cs') = pick occur cs ++ pick occur cs' := by
  simp [pick]

theorem combine_of_ne {cs : List Clause} (h : ∀ q, cs ≠ [⟨.should, q⟩]) :
    combine cs = .bool (pick .must cs) (pick .should cs) (pick .mustNot cs) none := by
  rw [combine.eq_def]
  split
  next q => exact absurd rfl (h q)
  next => rfl

theorem combine_ofBool {must should mustNot : List Query}
    (hs : must ++ mustNot = [] → should.length ≠ 1) :
    combine (ofBool must should mustNot) = .bool must should mustNot none := by
  rw [combine_of_ne fun q hq => ?_]
  · simp [ofBool, pick_append, pick_map]
  · have hmust := congrArg (pick .must) hq
    have hshould := congrArg (pick .should) hq
    have hmustNot := congrArg (pick .mustNot) hq
    simp [ofBool, pick_append, pick_map] at hmust hshould hmustNot
    simp [pick] at hmust hshould hmustNot
    exact hs (by rw [hmust, hmustNot]; rfl) (by rw [hshould]; rfl)

/-- What the texts of clauses are read as, wherever they stand. -/
structure Readable (d : String) (decimal : Binary32 → String) (c : Clause) : Prop where
  wellFormed : c.query.WellFormed d decimal
  factor : ∀ {u}, Ends u → (factor d (c.query.write decimal ++ u)).outcome = .value c.query u

variable {c : Clause} {cs : List Clause}

theorem opens_write (h : c.query.WellFormed d decimal) (s : List Char) :
    Opens (c.write decimal ++ s) := by
  rw [write, List.append_assoc]
  have hquery := unsigned_write h s
  obtain ⟨occur, q⟩ := c
  cases occur with
  | must => exact ⟨rfl, rfl, rfl⟩
  | should => exact hquery.toOpens
  | mustNot => exact ⟨rfl, rfl, rfl⟩

theorem Readable.clause (h : c.Readable d decimal) (hs : Ends s) :
    (clause d (c.write decimal ++ s)).outcome = .value c s := by
  have hfactor := h.factor hs
  have hquery := unsigned_write h.wellFormed s
  rw [write, List.append_assoc]
  obtain ⟨occur, q⟩ := c
  cases occur with
  | must => exact clause_plus hfactor
  | mustNot => exact clause_minus hfactor
  | should => exact (hquery.clause d).trans (Outcome.map_eq_value.2 ⟨q, hfactor, rfl⟩)

def writeRest (decimal : Binary32 → String) (cs : List Clause) (s : List Char) : List Char :=
  (cs.map (write decimal)).flatMap (' ' :: ·) ++ ')' :: s

theorem writeRest_cons (c : Clause) (cs : List Clause) (s : List Char) :
    writeRest decimal (c :: cs) s = ' ' :: (c.write decimal ++ writeRest decimal cs s) := by
  simp [writeRest]

theorem ends_writeRest (cs : List Clause) (s : List Char) : Ends (writeRest decimal cs s) := by
  cases cs with
  | nil => rfl
  | cons c cs => rfl

theorem skipSpace_writeRest (h : c.query.WellFormed d decimal) (cs : List Clause) (s : List Char) :
    skipSpace (writeRest decimal (c :: cs) s) = c.write decimal ++ writeRest decimal cs s := by
  rw [writeRest_cons]
  exact (opens_write h _).space

theorem Readable.conjunction (h : c.Readable d decimal) (hcs : ∀ c ∈ cs, Readable d decimal c)
    (s : List Char) : (conjunction d (c.write decimal ++ writeRest decimal cs s)).outcome =
      .value c (writeRest decimal cs s) := by
  refine conjunction_of_clause (h.clause (ends_writeRest cs s)) ?_
  cases cs with
  | nil => rfl
  | cons c' cs =>
    have hc := (hcs c' (.head _)).wellFormed
    rw [skipSpace_writeRest hc]
    exact (opens_write hc _).and_

theorem alternatives_writeRest (hcs : ∀ c ∈ cs, Readable d decimal c) (s : List Char) :
    (alternatives d (writeRest decimal cs s)).outcome = .value cs (')' :: s) := by
  induction cs with
  | nil => exact alternatives_of_miss conjunction_close
  | cons c cs ih =>
    obtain ⟨hc, hcs⟩ := List.forall_mem_cons.1 hcs
    rw [alternatives_outcome, skipSpace_writeRest hc.wellFormed, (opens_write hc.wellFormed _).or_,
      hc.conjunction hcs, Outcome.elim, ih hcs]
    rfl

theorem disjunction_spaced (hne : cs ≠ []) (hcs : ∀ c ∈ cs, Readable d decimal c) (s : List Char) :
    (disjunction d (skipSpace (spaced (cs.map (write decimal)) ++ ')' :: s))).outcome =
      .value (combine cs) (')' :: s) := by
  obtain ⟨c, cs, rfl⟩ := List.exists_cons_of_ne_nil hne
  obtain ⟨hc, hcs⟩ := List.forall_mem_cons.1 hcs
  have htext : spaced ((c :: cs).map (write decimal)) ++ ')' :: s =
      c.write decimal ++ writeRest decimal cs s := List.append_assoc ..
  rw [htext, (opens_write hc.wellFormed _).space, disjunction_outcome, hc.conjunction hcs,
    Outcome.andThen, alternatives_writeRest hcs]
  rfl

end Clause

namespace Query

open Clause

variable {d : String} {decimal : Binary32 → String} {q : Query}

theorem fielded?_of_isName {name : String} (hn : IsName name) (t : List Char) :
    fielded? d (name.toList ++ ':' :: t) =
      (pattern? true t).map fun (p, rest) => (ofPattern d name p, rest) := by
  have hcolon : (':' :: t).head?.any isFieldChar = false :=
    show isFieldChar ':' = false by decide +kernel
  rw [fielded?, takeWhile_append_eq hn.2.1 hcolon, dropWhile_append_eq hn.2.1 hcolon]
  split
  next c name' t' hname ht =>
    cases ht
    rw [← hname, String.ofList_toList]
  next hne =>
    obtain ⟨c, name', hc⟩ := List.exists_cons_of_ne_nil (mt String.toList_eq_nil_iff.1 hn.1)
    exact absurd rfl (hne c name' t hc)

theorem factor_field {name : String} {pattern : Pattern} {boost : Option Binary32} (hn : IsName name)
    (hp : pattern.WellFormed d name) (hb : ∀ b ∈ boost, Stands b (decimal b)) {u : List Char}
    (hu : Ends u) :
    (factor d (write decimal (.field name pattern boost) ++ u)).outcome =
      .value (.field name pattern boost) u := by
  obtain ⟨c, name', hc⟩ := List.exists_cons_of_ne_nil (mt String.toList_eq_nil_iff.1 hn.1)
  have hfield : isFieldChar c := hn.2.1 c (by rw [hc]; exact .head _)
  have hstar : c ≠ '*' := by rintro rfl; revert hfield; decide +kernel
  have hparen : c ≠ '(' := by rintro rfl; revert hfield; decide +kernel
  have hof : ofPattern d name pattern = .field name pattern none := by
    refine if_neg fun ⟨he, hname⟩ => ?_
    rw [he] at hp
    exact hp.2.2 rfl hname
  have hsimple : simple? d (name.toList ++ ':' :: (pattern.write ++ (writeBoost decimal boost ++ u))) =
      some (.field name pattern none, writeBoost decimal boost ++ u) := by
    rw [simple?, fielded?_of_isName hn, pattern?_write hp (stops_writeBoost hu boost), ← hof]
    rfl
  have hprimary : (primary d (write decimal (.field name pattern boost) ++ u)).outcome =
      .value (.field name pattern none) (writeBoost decimal boost ++ u) := by
    rw [write, List.append_assoc, List.cons_append, List.append_assoc, primary_outcome, hsimple, hc]
    simp [strip?, Ne.symm hstar, Ne.symm hparen]
  rw [factor_outcome, hprimary, Outcome.andThen, boost?_write hb hu]
  cases boost <;> rfl

theorem factor_write (h : q.WellFormed d decimal) {u : List Char} (hu : Ends u) :
    (factor d (q.write decimal ++ u)).outcome = .value q u := by
  induction h generalizing u with
  | matchAll =>
    have hprimary : (primary d (write decimal .matchAll ++ u)).outcome = .value .matchAll u := by
      rw [primary_outcome]
      rfl
    rw [factor_outcome, hprimary, Outcome.andThen, boost?_of_head? (hu.head?_ne (by decide))]
    rfl
  | field hn hp hb => exact factor_field hn hp hb hu
  | @bool must should mustNot boost h hne hs hb ih =>
    have hcs : ∀ c ∈ ofBool must should mustNot, Readable d decimal c := by
      intro c hc
      have hq : c.query ∈ must ++ (should ++ mustNot) := by
        simp only [ofBool, List.mem_append, List.mem_map] at hc ⊢
        obtain ⟨q, hq, rfl⟩ | ⟨q, hq, rfl⟩ | ⟨q, hq, rfl⟩ := hc
        · exact .inl hq
        · exact .inr (.inl hq)
        · exact .inr (.inr hq)
      exact ⟨h _ hq, ih _ hq⟩
    have hne' : ofBool must should mustNot ≠ [] := by simpa [ofBool] using hne
    have htext : write decimal (.bool must should mustNot boost) ++ u =
        '(' :: (spaced ((ofBool must should mustNot).map (Clause.write decimal)) ++
          ')' :: (writeBoost decimal boost ++ u)) := by
      have hmust := @writeEach_eq decimal .must must
      have hshould := @writeEach_eq decimal .should should
      have hmustNot := @writeEach_eq decimal .mustNot mustNot
      simp only [Occur.sign] at hmust hshould hmustNot
      simp [write, ofBool, hmust, hshould, hmustNot]
    have hprimary : (primary d (write decimal (.bool must should mustNot boost) ++ u)).outcome =
        .value (.bool must should mustNot none) (writeBoost decimal boost ++ u) := by
      rw [htext, primary_outcome, strip?, if_pos rfl, strip?]
      dsimp only
      rw [disjunction_spaced hne' hcs, combine_ofBool hs]
      rfl
    rw [factor_outcome, hprimary, Outcome.andThen, boost?_write hb hu]
    cases boost <;> rfl

theorem exists_head_write (h : q.WellFormed d decimal) :
    ∃ c s, q.write decimal = c :: s ∧ isBlank c = false := by
  cases h with
  | matchAll => exact ⟨_, _, rfl, by decide⟩
  | bool => exact ⟨_, _, rfl, by decide⟩
  | field hn =>
    obtain ⟨c, name, hc⟩ := List.exists_cons_of_ne_nil (mt String.toList_eq_nil_iff.1 hn.1)
    have hterm : isTermChar c := isTermChar_of_isFieldChar (hn.2.1 c (by rw [hc]; exact .head _))
    rw [isTermChar, Bool.not_eq_true', Bool.or_eq_false_iff] at hterm
    rw [write, hc]
    exact ⟨c, _, rfl, hterm.1⟩

/-- A well-formed query is what its text is read as. -/
theorem parse_write (h : q.WellFormed d decimal) :
    parse d (String.ofList (q.write decimal)) = .ok q := by
  have hopens := unsigned_write h []
  have hfactor := factor_write h (u := []) rfl
  rw [List.append_nil] at hopens hfactor
  have hclause : (clause d (q.write decimal)).outcome = .value ⟨.should, q⟩ [] :=
    (hopens.clause d).trans (Outcome.map_eq_value.2 ⟨q, hfactor, rfl⟩)
  have hdisjunction := disjunction_of_conjunction (conjunction_of_clause hclause rfl)
  obtain ⟨c, s, hs, hc⟩ := exists_head_write h
  have htrim : trim (q.write decimal) ≠ [] := hs ▸ trim_ne_nil hc
  rw [parse_eq, String.toList_ofList, if_neg htrim, hopens.space, hdisjunction]
  rfl

def mixed : Query :=
  .bool [.field "title" (.phrase "a b") (some ⟨false, 0x3f000000⟩)]
    [.field "x" (.prefixed "ru") none, .field "y" (.wildcard "r?st") none, .matchAll]
    [.bool [] [] [.field "n" (.range (some "1") none true false) none] (some 2)] none

theorem parse_write_mixed :
    parse allField "(+title:\"a b\"^0.5 x:ru* y:r?st *:* -(-n:[1 TO *\x7d)^2)" = .ok mixed := by
  have hname {name : String} (h : name ∈ ["title", "x", "y", "n"]) : IsName name := by
    have hall : ∀ name ∈ ["title", "x", "y", "n"], IsName name := by decide +kernel
    exact hall name h
  have hphrase : (Pattern.phrase "a b").WellFormed allField "title" :=
    show '"' ∉ "a b".toList by decide
  have hprefixed : (Pattern.prefixed "ru").WellFormed allField "x" :=
    ⟨by decide +kernel, by simp [isWild], nofun⟩
  have hwildcard : (Pattern.wildcard "r?st").WellFormed allField "y" := by
    refine ⟨by decide +kernel, ⟨'?', by decide, rfl⟩, fun start _ he => ?_⟩
    have hlast := congrArg List.getLast? he
    rw [List.getLast?_concat] at hlast
    cases hlast
  have hrange : (Pattern.range (some "1") none true false).WellFormed allField "n" :=
    ⟨by decide +kernel, nofun⟩
  have hmixed : mixed.WellFormed allField Binary.text := by
    refine .bool (fun q hq => ?_) (by simp) (by simp) nofun
    simp only [List.cons_append, List.nil_append, List.mem_cons, List.not_mem_nil, or_false] at hq
    obtain rfl | rfl | rfl | rfl | rfl := hq
    · refine .field (hname (by simp)) hphrase fun b hb => ?_
      cases hb
      exact stands_text (by decide +kernel)
    · exact .field (hname (by simp)) hprefixed nofun
    · exact .field (hname (by simp)) hwildcard nofun
    · exact .matchAll
    · refine .bool (fun q hq => ?_) (by simp) (by simp) fun b hb => ?_
      · obtain rfl := List.mem_singleton.1 hq
        exact .field (hname (by simp)) hrange nofun
      · cases hb
        exact stands_text (by decide +kernel)
  have htext : String.ofList (mixed.write Binary.text) =
      "(+title:\"a b\"^0.5 x:ru* y:r?st *:* -(-n:[1 TO *\x7d)^2)" := by
    decide +kernel
  exact htext ▸ parse_write hmixed

end Query

end Corpus
