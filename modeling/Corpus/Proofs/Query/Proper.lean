import Corpus.Proofs.Query.Ending
import Corpus.Proofs.Query.RoundTrip

/-! The queries that reading makes of texts.  What a reader makes of proper parts is proper, so that there is
no need to look at the texts again. -/

namespace Corpus

open Text Number

namespace Query

variable {d name : String} {s t rest : List Char}

theorem isNaN_boost? (s : List Char) :
    (boost? s).outcome.Gives fun boost _ => ∀ b ∈ boost, b.isNaN = false := by
  by_cases hs : s.head? = some '^'
  · obtain ⟨s, rfl⟩ := List.head?_eq_some_iff.1 hs
    rw [boost?_caret]
    split
    next => exact nofun
    next t ht =>
      refine Outcome.gives_andThen fun _ rest hrest b hb => ?_
      obtain ⟨c, v, hv, hc, hsuffix⟩ := exists_of_digitsEnd? ht
      obtain ⟨taken, rfl⟩ := (Outcome.gives_iff.1 (suffix_exponentEnd t) _ _ hrest).trans hsuffix
      obtain ⟨sign, hsign, he⟩ := exists_sign s
      have htake : s.take (s.length - rest.length) = sign ++ c :: taken := by
        rw [hv] at he
        rw [← he, ← List.cons_append, ← List.append_assoc, List.length_append, Nat.add_sub_cancel,
          List.take_left]
      have hne {c' : Char} (hc' : isDigitOrPoint c' = false) : (c :: taken).head? ≠ some c' := by
        intro hhead
        cases hhead
        exact Bool.false_ne_true (hc'.symm.trans hc)
      refine Binary.isNaN_ofText? hb ?_
      rw [String.toList_ofList, htake, readSign_append hsign (hne (by decide)) (hne (by decide))]
      exact hc
  · rw [boost?_of_head? hs]
    exact nofun

theorem wellFormed_ofWord {word : List Char} (hne : word ≠ []) (hrun : Pattern.IsRun word)
    (ho : isOperator word = false) (hstar : ofWord word = .prefixed "" → name ≠ d) :
    (ofWord word).WellFormed d name := by
  by_cases hwild : ∃ c ∈ word, isWild c
  · by_cases hp : ∃ start, (∀ c ∈ start, isWild c = false) ∧ word = start ++ ['*']
    · obtain ⟨start, htame, rfl⟩ := hp
      rw [ofWord_star htame] at hstar ⊢
      refine ⟨?_, ?_, fun he => hstar (congrArg _ he)⟩
      · rw [String.toList_ofList]
        exact fun c hc => hrun c (List.mem_append_left _ hc)
      · rwa [String.toList_ofList]
    · rw [ofWord_of_wild hwild fun start htame he => hp ⟨start, htame, he⟩, Pattern.WellFormed,
        String.toList_ofList]
      exact ⟨hrun, hwild, fun start htame he => hp ⟨start, htame, he⟩⟩
  · have htame : ∀ c ∈ word, isWild c = false := fun c hc =>
      Bool.eq_false_iff.2 fun hw => hwild ⟨c, hc, hw⟩
    rw [ofWord_of_tame htame, Pattern.WellFormed, String.toList_ofList]
    refine ⟨fun he => hne (by simpa using he), hrun, htame, fun hm => ?_⟩
    refine Bool.eq_false_iff.1 ho (List.any_eq_true.2 ⟨_, hm, ?_⟩)
    simp

theorem isBound_bound {text rest : List Char} (h : boundText? s = some (text, rest)) :
    Pattern.IsBound (bound text) := by
  intro text' ht
  rw [bound] at ht
  split at ht
  next => cases ht
  next hstar =>
    cases ht
    rw [boundText?] at h
    split at h
    next => cases h
    next word hne =>
      cases h
      refine ⟨by simpa using hne, fun he => ?_, fun c hc => ?_⟩
      · exact hstar (by simpa using congrArg String.toList he)
      · rw [String.toList_ofList] at hc
        exact List.mem_takeWhile_imp hc

theorem wellFormed_of_range? {includeLower : Bool} {p : Pattern}
    (h : range? includeLower s = some (p, t)) : p.WellFormed d name := by
  simp only [range?, Option.bind_eq_bind, Option.bind_eq_some_iff] at h
  obtain ⟨⟨lower, s₀⟩, h₀, s₁, -, s₂, -, s₃, -, ⟨upper, s₄⟩, h₄, h⟩ := h
  dsimp only at h
  split at h
  next => cases h; exact ⟨isBound_bound h₀, isBound_bound h₄⟩
  next => cases h; exact ⟨isBound_bound h₀, isBound_bound h₄⟩
  next => cases h

theorem wellFormed_of_pattern? {colons : Bool} {p : Pattern} (h : pattern? colons s = some (p, t))
    (hstar : p = .prefixed "" → name ≠ d) : p.WellFormed d name := by
  rw [pattern?.eq_def] at h
  split at h
  next s =>
    split at h
    next => cases h
    next =>
      cases h
      rw [Pattern.WellFormed, String.toList_ofList]
      intro hc
      simpa using List.mem_takeWhile_imp hc
  next => exact wellFormed_of_range? h
  next => exact wellFormed_of_range? h
  next =>
    simp only [word?, Option.ite_none_left_eq_some, not_or, Bool.not_eq_true, Option.some.injEq,
      Prod.mk.injEq] at h
    obtain ⟨⟨hne, ho⟩, rfl, -⟩ := h
    refine wellFormed_ofWord hne (fun c hc => ?_) ho hstar
    have hword := List.mem_takeWhile_imp hc
    simp only [isWordChar, Bool.or_eq_true, Bool.and_eq_true, decide_eq_true_eq] at hword
    exact hword.imp_right And.right

/-- The queries that texts are read as, `d` being the default field.  A combination has parts, and is
not one of a single part that should match. -/
inductive Proper (d : String) : Query → Prop
  | matchAll : Proper d .matchAll
  | field {name : String} {pattern : Pattern} {boost : Option Binary32} (hn : name ≠ "")
    (hp : pattern.WellFormed d name) (hb : ∀ b ∈ boost, b.isNaN = false) :
    Proper d (.field name pattern boost)
  | bool {must should mustNot : List Query} {boost : Option Binary32}
    (h : ∀ q ∈ must ++ (should ++ mustNot), Proper d q) (hne : must ++ (should ++ mustNot) ≠ [])
    (hs : must ++ mustNot = [] → should.length ≠ 1) (hb : ∀ b ∈ boost, b.isNaN = false) :
    Proper d (.bool must should mustNot boost)

theorem Proper.boosted {q : Query} (h : q.Proper d) {b : Binary32} (hb : b.isNaN = false) :
    (q.boosted b).Proper d := by
  have hb' : ∀ b' ∈ some b, b'.isNaN = false := fun b' he => by cases he; exact hb
  cases h with
  | matchAll => exact .bool (by simpa using Proper.matchAll) (by simp) (by simp) hb'
  | field hn hp _ => exact .field hn hp hb'
  | bool h hne hs _ => exact .bool h hne hs hb'

theorem proper_ofPattern {p : Pattern} (hn : name ≠ "")
    (hp : (p = .prefixed "" → name ≠ d) → p.WellFormed d name) : (ofPattern d name p).Proper d := by
  rw [ofPattern]
  split
  next => exact .matchAll
  next h => exact .field hn (hp fun hstar hname => h ⟨hstar, hname⟩) nofun

theorem proper_of_simple? (hd : d ≠ "") {q : Query} (h : simple? d s = some (q, t)) : q.Proper d := by
  rcases Option.or_eq_some_iff.1 h with h | ⟨-, h⟩
  · rw [fielded?] at h
    split at h
    next c name u _ _ =>
      obtain ⟨⟨p, t⟩, hp, ⟨⟩⟩ := Option.map_eq_some_iff.1 h
      exact proper_ofPattern (by simp) (wellFormed_of_pattern? hp)
    next => cases h
  · obtain ⟨⟨p, t⟩, hp, ⟨⟩⟩ := Option.map_eq_some_iff.1 h
    exact proper_ofPattern hd (wellFormed_of_pattern? hp)

section

variable {cs : List Clause}

theorem mem_pick {c : Clause} (h : c ∈ cs) : c.query ∈ Clause.pick c.occur cs :=
  List.mem_map_of_mem (List.mem_filter.2 ⟨h, decide_eq_true rfl⟩)

theorem proper_of_mem_pick (h : ∀ c ∈ cs, c.query.Proper d) {occur : Occur} {q : Query}
    (hq : q ∈ Clause.pick occur cs) : q.Proper d := by
  obtain ⟨c, hc, rfl⟩ := List.mem_map.1 hq
  exact h c (List.mem_filter.1 hc).1

theorem occur_eq_should (hm : Clause.pick .must cs = []) (hn : Clause.pick .mustNot cs = []) :
    ∀ c ∈ cs, c.occur = .should := by
  intro c hc
  have hq := mem_pick hc
  cases ho : c.occur with
  | should => rfl
  | must =>
    rw [ho, hm] at hq
    cases hq
  | mustNot =>
    rw [ho, hn] at hq
    cases hq

theorem proper_combine (hne : cs ≠ []) (h : ∀ c ∈ cs, c.query.Proper d) :
    (Clause.combine cs).Proper d := by
  by_cases hone : ∃ q, cs = [⟨.should, q⟩]
  · obtain ⟨q, rfl⟩ := hone
    exact h _ (.head _)
  · have hsingle : ∀ q, cs ≠ [⟨.should, q⟩] := fun q hq => hone ⟨q, hq⟩
    rw [Clause.combine_of_ne hsingle]
    refine .bool (fun q hq => ?_) (fun hnil => ?_) (fun hsigned hlen => ?_) nofun
    · rcases List.mem_append.1 hq with hq | hq
      · exact proper_of_mem_pick h hq
      · exact (List.mem_append.1 hq).elim (proper_of_mem_pick h) (proper_of_mem_pick h)
    · obtain ⟨hm, hnil⟩ := List.append_eq_nil_iff.1 hnil
      obtain ⟨hs, hn⟩ := List.append_eq_nil_iff.1 hnil
      obtain ⟨c, cs, rfl⟩ := List.exists_cons_of_ne_nil hne
      have hq := mem_pick (.head cs : c ∈ c :: cs)
      rw [occur_eq_should hm hn c (.head _), hs] at hq
      cases hq
    · obtain ⟨hm, hn⟩ := List.append_eq_nil_iff.1 hsigned
      have hall := occur_eq_should hm hn
      rw [Clause.pick, List.filter_eq_self.2 fun c hc => decide_eq_true (hall c hc), List.length_map] at hlen
      obtain ⟨⟨occur, q⟩, rfl⟩ := List.length_eq_one_iff.1 hlen
      obtain rfl : occur = .should := hall _ (.head _)
      exact hsingle q rfl

theorem proper_chain {c : Clause} (h : ∀ e ∈ c :: cs, e.query.Proper d) :
    (Clause.chain (c :: cs)).query.Proper d := by
  cases cs with
  | nil => exact h c (.head _)
  | cons e cs =>
    refine .bool (fun q hq => ?_) (fun hnil => ?_) nofun nofun
    · rcases List.mem_append.1 hq with hq | hq
      · obtain ⟨e, he, rfl⟩ := List.mem_map.1 hq
        exact h e (List.mem_filter.1 he).1
      · exact proper_of_mem_pick h hq
    · obtain ⟨hm, hn⟩ := List.append_eq_nil_iff.1 hnil
      by_cases ho : c.occur = .mustNot
      · have hq := mem_pick (.head (e :: cs) : c ∈ c :: e :: cs)
        rw [ho, ← List.nil_append (Clause.pick ..), hn] at hq
        cases hq
      · rw [List.filter_cons_of_pos (by simpa using ho)] at hm
        cases hm

end

section

variable {α β : Type} {P : α → List Char → Prop} {Q : β → List Char → Prop}

def Yields (P : α → List Char → Prop) (o : Option (Outcome α)) : Prop := ∀ o' ∈ o, o'.Gives P

theorem yields_some {o : Outcome α} : Yields P (some o) ↔ o.Gives P :=
  ⟨fun h => h o rfl, fun h o' ho => by cases ho; exact h⟩

theorem Yields.miss : Yields P (some .miss) := yields_some.2 trivial

theorem Yields.value {a : α} (h : P a rest) : Yields P (some (.value a rest)) := yields_some.2 h

theorem Yields.map {o : Option (Outcome α)} (h : Yields P o) {f : α → β}
    (hf : ∀ a rest, P a rest → Q (f a) rest) : Yields Q (o.map (.map f)) := by
  intro o' ho
  obtain ⟨o, hmem, rfl⟩ := Option.map_eq_some_iff.1 ho
  exact .map ((h o hmem).imp hf)

theorem Yields.next {o : Option (Outcome α)} (h : Yields P o) {other : Option (Outcome β)}
    (hm : Yields Q other) {f : α → List Char → Option (Outcome β)}
    (hf : ∀ a rest, P a rest → Yields Q (f a rest)) : Yields Q (next o other f) := by
  cases o with
  | none => exact nofun
  | some o =>
    cases o with
    | value a rest => exact hf a rest (h _ rfl)
    | miss => exact hm
    | fault place => exact yields_some.2 trivial

end

def Reader.Sound (d : String) : (r : Reader) → r.Value → Prop
  | .disjunction, q => q.Proper d
  | .alternatives, cs => ∀ c ∈ cs, c.query.Proper d
  | .conjunction, c => c.query.Proper d
  | .conjuncts, cs => ∀ c ∈ cs, c.query.Proper d
  | .clause, c => c.query.Proper d
  | .signed, c => c.query.Proper d
  | .factor, q => q.Proper d
  | .primary, q => q.Proper d

theorem sound_step (hd : d ≠ "") {call : (r : Reader) → List Char → Option (Outcome r.Value)}
    (h : ∀ r t, Yields (fun v _ => r.Sound d v) (call r t)) (r : Reader) (s : List Char) :
    Yields (fun v _ => r.Sound d v) (step d call r s) := by
  cases r with
  | disjunction =>
    refine (h .conjunction s).next .miss fun c rest hc => ?_
    exact (h .alternatives rest).map fun cs _ hcs =>
      proper_combine (List.cons_ne_nil _ _) (List.forall_mem_cons.2 ⟨hc, hcs⟩)
  | alternatives =>
    refine (h .conjunction _).next (.value (List.forall_mem_nil _)) fun c rest hc => ?_
    exact (h .alternatives rest).map fun cs _ hcs => List.forall_mem_cons.2 ⟨hc, hcs⟩
  | conjunction =>
    refine (h .clause s).next .miss fun c rest hc => ?_
    exact (h .conjuncts rest).map fun cs _ hcs => proper_chain (List.forall_mem_cons.2 ⟨hc, hcs⟩)
  | conjuncts =>
    rw [step]
    split
    next => exact .value (List.forall_mem_nil _)
    next t _ =>
      refine (h .clause t).next (.value (List.forall_mem_nil _)) fun c rest hc => ?_
      exact (h .conjuncts rest).map fun cs _ hcs => List.forall_mem_cons.2 ⟨hc, hcs⟩
  | clause =>
    exact (h .signed _).next ((h .factor _).map fun _ _ hq => hq) fun c rest hc => .value hc
  | signed =>
    rw [step]
    split
    next t _ => exact (h .clause t).map fun _ _ hc => hc
    next t _ _ => exact (h .factor t).map fun _ _ hq => hq
    next t _ _ _ => exact (h .factor t).map fun _ _ hq => hq
    next => exact .miss
  | factor =>
    refine (h .primary s).next .miss fun q rest hq => yields_some.2 (.map ?_)
    refine (isNaN_boost? rest).imp fun boost _ hb => ?_
    cases boost with
    | none => exact hq
    | some b => exact Proper.boosted hq (hb b rfl)
  | primary =>
    rw [step]
    split
    next t _ =>
      refine (h .disjunction _).next .miss fun q rest hq => ?_
      split
      next => exact .value hq
      next => exact .miss
    next => exact .value Proper.matchAll
    next hs => exact .value (proper_of_simple? hd hs)
    next => exact .miss

theorem sound_read (hd : d ≠ "") (fuel : Nat) (r : Reader) (s : List Char) :
    Yields (fun v _ => r.Sound d v) (read d fuel r s) := by
  induction fuel generalizing r s with
  | zero => exact nofun
  | succ fuel ih => exact sound_step hd ih r s

theorem proper_parse (hd : d ≠ "") {text : String} {q : Query} (h : parse d text = .ok q) :
    q.Proper d := by
  rw [parse_eq] at h
  split at h
  next => cases h; exact .matchAll
  next =>
    split at h
    next q' rest hq =>
      split at h
      next =>
        cases h
        have hread := read_eq d (Nat.lt_add_one (Reader.size .disjunction (skipSpace text.toList)))
        have hgives := sound_read hd _ .disjunction _ _ hread
        exact Outcome.gives_iff.1 hgives q rest hq
      next => cases h
    next => cases h
    next => cases h

theorem proper_parse_stars :
    ∃ q, parse allField "NOT (a:*^2 OR *:*^0) AND b:[* TO 5\x7d" = .ok q ∧ q.Proper allField := by
  have hread : parseWithin allField 250 "NOT (a:*^2 OR *:*^0) AND b:[* TO 5\x7d" =
      some (.ok (.bool [.field "b" (.range none (some "5") true false) none] []
        [.bool [] [.field "a" (.prefixed "") (some ⟨false, 0x40000000⟩),
          .bool [.matchAll] [] [] (some .zero)] [] none] none)) := rfl
  rw [parseWithin_eq allField (by decide)] at hread
  have hparse := Option.some.inj hread
  exact ⟨_, hparse, proper_parse (by decide) hparse⟩

end Query

end Corpus
