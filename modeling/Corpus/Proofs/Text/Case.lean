import Corpus.Proofs.Text.Blank
import Corpus.Record

/-! Lowercase text has no character that lowercase would change, and no white space that was not there
before.

The beginning of a word in small letters mostly begins the word in small letters.  But a capital sigma can
stand at the end of the one and inside the other, and a word that has no capitals is indexed as it is, with
letters that are neither capital nor small. -/

namespace Corpus.Text

/-- Whether no run has any of `first, first + step, …` up to `last`. -/
def avoids (first last step : Nat) : List (Nat × Nat × Nat × Int) → Bool
  | [] => true
  | (first', last', step', _) :: rest =>
    last < first' ||
      (last' < first || (step = 2 || first = last) && step' = 2 && (first + first') % 2 = 1) &&
        avoids first last step rest

theorem lowering_eq_zero {first last step : Nat} {runs : List (Nat × Nat × Nat × Int)}
    (h : avoids first last step runs) {i : Nat} (hi : first + i * step ≤ last) :
    lowering runs (first + i * step) = 0 := by
  induction runs with
  | nil => rfl
  | cons run rest ih =>
    obtain ⟨first', last', step', shift⟩ := run
    simp only [avoids, Bool.or_eq_true, Bool.and_eq_true, decide_eq_true_eq] at h
    rw [lowering]
    split
    next => rfl
    next hlt =>
      split
      next hin =>
        simp only [Bool.and_eq_true, decide_eq_true_eq, beq_iff_eq] at hin
        rcases h with h | ⟨h | ⟨⟨rfl | rfl, rfl⟩, h⟩, -⟩ <;> omega
      next =>
        rcases h with h | ⟨-, h⟩
        · omega
        · exact ih h

/-- Code points that no capital becomes: white space, the dotted capital I, and what is no character. -/
def foreign : Runs := (0x130, 0x130) :: (0xD800, 0xDFFF) :: blanks

def isSettled : Nat × Nat × Nat × Int → Bool
  | (first, last, step, shift) =>
    0 ≤ first + shift && last + shift < 0x110000 &&
      avoids (first + shift).toNat (last + shift).toNat step lowerings &&
      foreign.all fun (first', last') =>
        (last + shift).toNat < first' || last' < (first + shift).toNat

theorem isSettled_lowerings : ∀ run ∈ lowerings, isSettled run := by decide +kernel

theorem lowering_cases (runs : List (Nat × Nat × Nat × Int)) (c : Nat) :
    lowering runs c = 0 ∨ ∃ first last step shift i, (first, last, step, shift) ∈ runs ∧
      c = first + i * step ∧ c ≤ last ∧ lowering runs c = shift := by
  induction runs with
  | nil => exact .inl rfl
  | cons run rest ih =>
    obtain ⟨first, last, step, shift⟩ := run
    rw [lowering]
    split
    next => exact .inl rfl
    next hlt =>
      split
      next hin =>
        simp only [Bool.and_eq_true, decide_eq_true_eq, beq_iff_eq] at hin
        have hc : c - first = (c - first) / step * step := by
          rw [Nat.mul_comm]
          exact (Nat.mul_div_cancel' (Nat.dvd_of_mod_eq_zero hin.2)).symm
        exact .inr ⟨first, last, step, shift, (c - first) / step, .head _, by omega, hin.1, rfl⟩
      next =>
        refine ih.imp_right ?_
        rintro ⟨f, l, st, sh, i, hm, h⟩
        exact ⟨f, l, st, sh, i, .tail _ hm, h⟩

theorem Runs.has_eq_false {runs : Runs} {c : Nat} (h : ∀ run ∈ runs, c < run.1 ∨ run.2 < c) :
    runs.has c = false := by
  induction runs with
  | nil => rfl
  | cons run rest ih =>
    rw [List.forall_mem_cons] at h
    have hrest := ih h.2
    obtain ⟨first, last⟩ := run
    rw [has, hrest, Bool.or_false, Bool.and_eq_false_iff, decide_eq_false_iff_not,
      decide_eq_false_iff_not]
    omega

structure Small (c : Char) : Prop where
  ne_sigma : c ≠ capitalSigma
  lower : lowerChar c = [c]

theorem small_of_lowering {c : Char} (hc : c.toNat ≠ 0x130) (h : lowering lowerings c.toNat = 0) :
    Small c where
  ne_sigma he := by
    rw [he] at h
    exact absurd h (by decide +kernel)
  lower := by
    rw [lowerChar, if_neg hc, h, Int.add_zero, Int.toNat_natCast, Char.ofNat_toNat]

theorem small_of_lowering_ne {c : Nat} (h : lowering lowerings c ≠ 0) :
    Small (Char.ofNat (c + lowering lowerings c).toNat) ∧
      isBlank (Char.ofNat (c + lowering lowerings c).toNat) = false := by
  obtain h0 | ⟨first, last, step, shift, i, hm, hc, hle, hshift⟩ := lowering_cases lowerings c
  · exact absurd h0 h
  have hsettled := isSettled_lowerings _ hm
  simp only [isSettled, Bool.and_eq_true, decide_eq_true_eq, List.all_eq_true, Bool.or_eq_true]
    at hsettled
  obtain ⟨⟨⟨hpos, htop⟩, havoids⟩, hforeign⟩ := hsettled
  rw [hshift]
  have hn : (c + shift).toNat = (first + shift).toNat + i * step := by omega
  have hlast : (first + shift).toNat + i * step ≤ (last + shift).toNat := by omega
  have hapart : ∀ run ∈ foreign, (c + shift).toNat < run.1 ∨ run.2 < (c + shift).toNat := by
    intro run hrun
    have hrun := hforeign run hrun
    omega
  have hlowering := lowering_eq_zero havoids hlast
  rw [← hn] at hlowering
  have hvalid : (c + shift).toNat.isValidChar := by
    have hsurrogate := hapart (0xD800, 0xDFFF) (.tail _ (.head _))
    rw [Nat.isValidChar]
    omega
  have hdotted := hapart (0x130, 0x130) (.head _)
  have htoNat : (Char.ofNat (c + shift).toNat).toNat = (c + shift).toNat := by
    rw [Char.ofNat, dif_pos hvalid]
    rfl
  constructor
  · refine small_of_lowering ?_ ?_ <;> rw [htoNat]
    · omega
    · exact hlowering
  · rw [isBlank, htoNat]
    exact Runs.has_eq_false fun run hrun => hapart run (.tail _ (.tail _ hrun))

theorem lowerChar_ne_nil (c : Char) : lowerChar c ≠ [] := by
  rw [lowerChar]
  split <;> exact List.cons_ne_nil _ _

theorem small_of_mem_lowerChar {c d : Char} (hd : d ∈ lowerChar c) :
    Small d ∧ (isBlank c = false → isBlank d = false) := by
  rw [lowerChar] at hd
  split at hd
  next =>
    simp only [List.mem_cons, List.not_mem_nil, or_false] at hd
    rcases hd with rfl | rfl
    · exact ⟨small_of_lowering (by decide) (by decide +kernel), fun _ => by decide⟩
    · exact ⟨small_of_lowering (by decide) (by decide +kernel), fun _ => by decide⟩
  next hdotted =>
    rw [List.mem_singleton] at hd
    by_cases h : lowering lowerings c.toNat = 0
    · rw [h, Int.add_zero, Int.toNat_natCast, Char.ofNat_toNat] at hd
      rw [hd]
      exact ⟨small_of_lowering hdotted h, id⟩
    · obtain ⟨hsmall, hblank⟩ := small_of_lowering_ne h
      exact hd ▸ ⟨hsmall, fun _ => hblank⟩

def lowerAt (before : List Char) (c : Char) (rest : List Char) : List Char :=
  if c = capitalSigma then
    [if meetsCased before && !meetsCased rest then finalSigma else smallSigma]
  else lowerChar c

theorem lowerAfter_cons (before : List Char) (c : Char) (rest : List Char) :
    lowerAfter before (c :: rest) = lowerAt before c rest ++ lowerAfter (c :: before) rest := rfl

section

variable {before rest : List Char} {c d : Char}

theorem lowerAt_ne_nil : lowerAt before c rest ≠ [] := by
  rw [lowerAt]
  split
  next => exact List.cons_ne_nil _ _
  next => exact lowerChar_ne_nil c

theorem small_of_mem_lowerAt (hd : d ∈ lowerAt before c rest) :
    Small d ∧ (isBlank c = false → isBlank d = false) := by
  rw [lowerAt] at hd
  split at hd
  next =>
    have hfinal : Small finalSigma := small_of_lowering (by decide) (by decide +kernel)
    have hinner : Small smallSigma := small_of_lowering (by decide) (by decide +kernel)
    rw [List.mem_singleton] at hd
    split at hd
    next => exact hd ▸ ⟨hfinal, fun _ => by decide⟩
    next => exact hd ▸ ⟨hinner, fun _ => by decide⟩
  next => exact small_of_mem_lowerChar hd

end

section

variable {s : List Char}

theorem small_of_mem_lowerAfter {before : List Char} {d : Char} (hd : d ∈ lowerAfter before s) :
    Small d := by
  induction s generalizing before with
  | nil => cases hd
  | cons c rest ih =>
    rw [lowerAfter_cons] at hd
    cases List.mem_append.1 hd with
    | inl hd => exact (small_of_mem_lowerAt hd).1
    | inr hd => exact ih hd

theorem lowerAfter_of_small (before : List Char) (h : ∀ c ∈ s, Small c) : lowerAfter before s = s := by
  induction s generalizing before with
  | nil => rfl
  | cons c rest ih =>
    rw [List.forall_mem_cons] at h
    rw [lowerAfter_cons, lowerAt, if_neg h.1.ne_sigma, h.1.lower, ih _ h.2, List.singleton_append]

theorem lower_lower (s : List Char) : lower (lower s) = lower s :=
  lowerAfter_of_small [] fun _ => small_of_mem_lowerAfter

theorem isBlank_getLast?_lowerAfter {before : List Char}
    (h : ∀ c, s.getLast? = some c → isBlank c = false) {d : Char}
    (hd : (lowerAfter before s).getLast? = some d) : isBlank d = false := by
  induction s generalizing before with
  | nil => cases hd
  | cons c rest ih =>
    rw [lowerAfter_cons, List.getLast?_append] at hd
    cases rest with
    | nil => exact (small_of_mem_lowerAt (List.mem_of_getLast? hd)).2 (h c rfl)
    | cons e rest =>
      refine ih (fun a ha => h a ?_) (?_ : (lowerAfter (c :: before) (e :: rest)).getLast? = some d)
      · rw [List.getLast?_cons_cons, ha]
      · have hne : lowerAfter (c :: before) (e :: rest) ≠ [] :=
          lowerAfter_cons .. ▸ List.append_ne_nil_of_left_ne_nil lowerAt_ne_nil _
        rwa [List.getLast?_eq_some_getLast hne, Option.some_or,
          ← List.getLast?_eq_some_getLast hne] at hd

theorem Bare.lower (h : Bare s) : Bare (lower s) where
  first d hd := by
    cases s with
    | nil => cases hd
    | cons c rest =>
      rw [Text.lower, lowerAfter_cons, List.head?_append, List.head?_eq_some_head lowerAt_ne_nil,
        Option.some_or, ← List.head?_eq_some_head lowerAt_ne_nil] at hd
      exact (small_of_mem_lowerAt (List.mem_of_head? hd)).2 (h.first c rfl)
  last d hd := isBlank_getLast?_lowerAfter h.last hd

end

def lowerWord (w : List Char) : List Char := if w.any isUppercase then lower w else w

/-- How `p` in small letters can fail to begin the word that goes on with `rest`. -/
inductive Strays (p rest : List Char) : Prop
  | sigma {front marks : List Char} (hp : p = front ++ capitalSigma :: marks)
    (hmarks : marks.all isCaseIgnorable) (hfront : meetsCased front.reverse)
    (hrest : meetsCased rest) : Strays p rest
  | kept (hword : (p ++ rest).any isUppercase = false) {c : Char} (hc : c ∈ p)
    (hlower : lowerChar c ≠ [c]) : Strays p rest

theorem meetsCased_cons (c : Char) (s : List Char) :
    meetsCased (c :: s) = if isCaseIgnorable c then meetsCased s else isCased c := by
  rw [meetsCased, List.dropWhile_cons]
  cases isCaseIgnorable c <;> rfl

theorem meetsCased_append (s rest : List Char) :
    meetsCased (s ++ rest) = if s.all isCaseIgnorable then meetsCased rest else meetsCased s := by
  induction s with
  | nil => rfl
  | cons c s ih =>
    rw [List.cons_append, meetsCased_cons, meetsCased_cons, List.all_cons, ih]
    cases isCaseIgnorable c <;> rfl

theorem meetsCased_of_all {s : List Char} (h : s.all isCaseIgnorable) : meetsCased s = false := by
  have hs := meetsCased_append s []
  rwa [if_pos h, List.append_nil] at hs

theorem lowerAt_append {before p rest : List Char} {c : Char} :
    lowerAt before c p = lowerAt before c (p ++ rest) ↔
      ¬(c = capitalSigma ∧ meetsCased before ∧ p.all isCaseIgnorable ∧ meetsCased rest) := by
  have hforms : finalSigma ≠ smallSigma := by decide
  rw [lowerAt, lowerAt]
  by_cases hc : c = capitalSigma
  -- only a sigma depends on what follows it
  · rw [if_pos hc, if_pos hc, meetsCased_append]
    cases hp : p.all isCaseIgnorable with
    | true =>
      rw [meetsCased_of_all hp]
      cases meetsCased before <;> cases meetsCased rest <;> simp [hc, hforms]
    | false => simp
  · simp [hc]

theorem length_lowerAt (before p rest : List Char) (c : Char) :
    (lowerAt before c p).length = (lowerAt before c rest).length := by
  rw [lowerAt, lowerAt]
  split <;> rfl

theorem append_prefix_append_iff {a b s t : List Char} (h : a.length = b.length) :
    a ++ s <+: b ++ t ↔ a = b ∧ s <+: t := by
  constructor
  · rintro ⟨u, hu⟩
    rw [List.append_assoc] at hu
    obtain ⟨rfl, ht⟩ := List.append_inj hu h
    exact ⟨rfl, u, ht⟩
  · rintro ⟨rfl, hst⟩
    exact (List.prefix_append_right_inj _).2 hst

theorem lowerAfter_prefix_iff {before p rest : List Char} :
    lowerAfter before p <+: lowerAfter before (p ++ rest) ↔
      ¬∃ front marks, p = front ++ capitalSigma :: marks ∧ marks.all isCaseIgnorable ∧
        meetsCased (front.reverse ++ before) ∧ meetsCased rest := by
  induction p generalizing before with
  | nil => simp [lowerAfter]
  | cons c p ih =>
    rw [List.cons_append, lowerAfter_cons, lowerAfter_cons,
      append_prefix_append_iff (length_lowerAt ..), ih, lowerAt_append, ← not_or, not_iff_not]
    constructor
    · rintro (⟨rfl, hbefore, hmarks, hrest⟩ | ⟨front, marks, rfl, h⟩)
      · exact ⟨[], p, rfl, hmarks, hbefore, hrest⟩
      · refine ⟨c :: front, marks, rfl, ?_⟩
        rwa [List.reverse_cons, List.append_assoc]
    · rintro ⟨front, marks, hp, h⟩
      cases front with
      | nil =>
        obtain ⟨rfl, rfl⟩ := List.cons.inj hp
        exact .inl ⟨rfl, h.2.1, h.1, h.2.2⟩
      | cons d front =>
        obtain ⟨rfl, rfl⟩ := List.cons.inj hp
        rw [List.reverse_cons, List.append_assoc] at h
        exact .inr ⟨front, marks, rfl, h⟩

theorem isUppercase_capitalSigma : isUppercase capitalSigma := by decide +kernel

theorem length_lowerAt_of_isUppercase {c : Char} (hc : isUppercase c = false)
    (before rest : List Char) : (lowerAt before c rest).length = 1 := by
  rw [lowerAt]
  split
  next => rfl
  next =>
    rw [lowerChar, if_neg]
    · rfl
    · intro hdotted
      rw [isUppercase, hdotted] at hc
      exact absurd hc (by decide +kernel)

theorem length_lowerAfter {p : List Char} (hp : p.any isUppercase = false) (before : List Char) :
    (lowerAfter before p).length = p.length := by
  induction p generalizing before with
  | nil => rfl
  | cons c p ih =>
    rw [List.any_cons, Bool.or_eq_false_iff] at hp
    rw [lowerAfter_cons, List.length_append, length_lowerAt_of_isUppercase hp.1, ih hp.2,
      List.length_cons, Nat.add_comm]

theorem lower_prefix_iff_of_any {p rest : List Char} (hp : p.any isUppercase = false) :
    lower p <+: p ++ rest ↔ ∀ c ∈ p, lowerChar c = [c] := by
  have heq : lower p <+: p ++ rest ↔ lower p = p := by
    have hsplit := append_prefix_append_iff (s := []) (t := rest) (length_lowerAfter hp [])
    rwa [List.append_nil, and_iff_left List.nil_prefix] at hsplit
  rw [heq]
  constructor
  · intro h c hc
    rw [← h] at hc
    exact (small_of_mem_lowerAfter hc).lower
  · intro h
    refine lowerAfter_of_small [] fun c hc => ⟨fun hsigma => ?_, h c hc⟩
    exact List.any_eq_false.1 hp c hc (hsigma ▸ isUppercase_capitalSigma)

theorem lower_prefix_lowerWord_iff {p rest : List Char} :
    lower p <+: lowerWord (p ++ rest) ↔ ¬Strays p rest := by
  rw [lowerWord]
  split
  next hword =>
    rw [lower, lower, lowerAfter_prefix_iff, not_iff_not]
    constructor
    · rintro ⟨front, marks, hp, hmarks, hfront, hrest⟩
      rw [List.append_nil] at hfront
      exact .sigma hp hmarks hfront hrest
    · rintro (⟨hp, hmarks, hfront, hrest⟩ | ⟨hkept, -, -⟩)
      · refine ⟨_, _, hp, hmarks, ?_, hrest⟩
        rwa [List.append_nil]
      · exact absurd hword (Bool.eq_false_iff.1 hkept)
  next hword =>
    have hword := Bool.eq_false_iff.2 hword
    have hp : p.any isUppercase = false := by
      rw [List.any_append, Bool.or_eq_false_iff] at hword
      exact hword.1
    rw [lower_prefix_iff_of_any hp]
    constructor
    · rintro h (⟨rfl, -, -, -⟩ | ⟨-, hc, hlower⟩)
      · exact List.any_eq_false.1 hp capitalSigma (by simp) isUppercase_capitalSigma
      · exact hlower (h _ hc)
    · intro h c hc
      by_contra hlower
      exact h (.kept hword hc hlower)

instance (p rest : List Char) : Decidable (Strays p rest) :=
  decidable_of_iff (¬lower p <+: lowerWord (p ++ rest)) (by
    rw [lower_prefix_lowerWord_iff, not_not])

/-- `ΟΔΟΣ` begins `ΟΔΟΣΑ`, and its last letter is another one there. -/
example : Strays "ΟΔΟΣ".toList ['Α'] ∧ ¬Strays "ΟΔΟ".toList ['Σ', 'Α'] := by decide +kernel

end Corpus.Text

namespace Corpus

open Text

@[simp] theorem tableName_tableName (text : String) : tableName (tableName text) = tableName text := by
  rw [tableName, tableName, trimmed, lowered, lowered, String.toList_ofList, String.toList_ofList,
    trimmed, String.toList_ofList, trim_of_bare (bare_trim _).lower, lower_lower]

end Corpus
