import Corpus.Text.Glob
import Mathlib.Data.List.Forall2

/-! What a pattern stands for: by its characters from the left, and the matcher against it; by the pieces
of a text; and as a regular expression, which has a mark for each end of the text between which the pattern
is written out, with a backslash before the characters that would mean something else there. -/

namespace Corpus.Text

inductive Matches : List Char → List Char → Prop
  | nil : Matches [] []
  | char {p c ps cs} : p ≠ '*' → standsFor p c → Matches ps cs → Matches (p :: ps) (c :: cs)
  | stop {ps cs} : Matches ps cs → Matches ('*' :: ps) cs
  | pass {c ps cs} : c ≠ '\n' → Matches ('*' :: ps) cs → Matches ('*' :: ps) (c :: cs)

inductive Marks (P : List Char → Prop) : List Char → List Bool → Prop
  | nil {m} : (m = true ↔ P []) → Marks P [] [m]
  | cons {c cs m ms} : (m = true ↔ P (c :: cs)) → Marks P cs ms → Marks P (c :: cs) (m :: ms)

theorem Marks.head {P : List Char → Prop} {text : List Char} {marks : List Bool}
    (h : Marks P text marks) : marks.headD false = true ↔ P text := by
  cases h with
  | nil h => exact h
  | cons h _ => exact h

theorem Marks.start (text : List Char) :
    Marks (Matches []) text (text.map (fun _ => false) ++ [true]) := by
  induction text with
  | nil => exact .nil ⟨fun _ => .nil, fun _ => rfl⟩
  | cons c cs ih => exact .cons ⟨nofun, nofun⟩ ih

theorem Marks.afterStar {ps text : List Char} {marks : List Bool} (h : Marks (Matches ps) text marks) :
    Marks (Matches ('*' :: ps)) text (Text.afterStar text marks) := by
  induction h with
  | nil h =>
    refine .nil (h.trans ⟨.stop, fun hm => ?_⟩)
    cases hm with
    | stop hm => exact hm
  | @cons c cs m ms h hms ih =>
    refine .cons ?_ ih
    rw [Bool.or_eq_true, Bool.and_eq_true, decide_eq_true_eq, ih.head, h]
    constructor
    · intro hm
      cases hm with
      | inl hm => exact .stop hm
      | inr hm => exact .pass hm.1 hm.2
    · intro hm
      cases hm with
      | char hp => exact absurd rfl hp
      | stop hm => exact .inl hm
      | pass hc hm => exact .inr ⟨hc, hm⟩

theorem Marks.afterChar {p : Char} (hp : p ≠ '*') {ps text : List Char} {marks : List Bool}
    (h : Marks (Matches ps) text marks) :
    Marks (Matches (p :: ps)) text (Text.afterChar p text marks) := by
  induction h with
  | nil h =>
    refine .nil ⟨nofun, fun hm => ?_⟩
    cases hm with
    | stop => exact absurd rfl hp
  | @cons c cs m ms h hms ih =>
    refine .cons ?_ ih
    rw [Bool.and_eq_true, hms.head]
    constructor
    · intro hm
      exact .char hp hm.1 hm.2
    · intro hm
      cases hm with
      | char _ hc hm => exact ⟨hc, hm⟩
      | stop => exact absurd rfl hp
      | pass => exact absurd rfl hp

theorem marks_matchedTails (pattern text : List Char) :
    Marks (Matches pattern) text (matchedTails pattern text) := by
  induction pattern with
  | nil => exact .start text
  | cons p ps ih =>
    by_cases hp : p = '*'
    · subst hp
      exact ih.afterStar
    · have h := ih.afterChar hp
      simp only [matchedTails, List.foldr_cons, if_neg hp] at h ⊢
      exact h

theorem globMatches_iff {pattern text : List Char} :
    globMatches pattern text = true ↔ Matches pattern text :=
  (marks_matchedTails pattern text).head

theorem Matches.startsWith_literalPart {pattern text : List Char} (h : Matches pattern text) :
    literalPart pattern <+: text := by
  induction h with
  | nil => exact List.nil_prefix
  | @char p c ps cs hs hc _ ih =>
    by_cases hp : p = '?'
    · simp [literalPart, isWild, hp]
    · have hpc : p = c := by simpa [standsFor, hp] using hc
      subst hpc
      have hw : (!isWild p) = true := by simp [isWild, hs, hp]
      rw [literalPart, List.takeWhile_cons, if_pos hw, List.cons_prefix_cons]
      exact ⟨rfl, ih⟩
  | stop => simp [literalPart, isWild]
  | pass => simp [literalPart, isWild]

def Covers (p : Char) (piece : List Char) : Prop :=
  if p = '*' then '\n' ∉ piece
  else if p = '?' then ∃ c, c ≠ '\n' ∧ piece = [c]
  else piece = [p]

theorem covers_singleton {p c : Char} (hp : p ≠ '*') (h : standsFor p c) : Covers p [c] := by
  rw [Covers, if_neg hp]
  rw [standsFor] at h
  split
  next hq => exact ⟨c, by simpa [hq] using h, rfl⟩
  next hq => simpa [hq, eq_comm] using h

theorem Matches.star {piece ps rest : List Char} (hpiece : '\n' ∉ piece) (h : Matches ps rest) :
    Matches ('*' :: ps) (piece ++ rest) := by
  induction piece with
  | nil => exact .stop h
  | cons c cs ih =>
    rw [List.mem_cons, not_or] at hpiece
    exact .pass (Ne.symm hpiece.1) (ih hpiece.2)

theorem Matches.cover {p : Char} {piece ps rest : List Char} (hpiece : Covers p piece)
    (h : Matches ps rest) : Matches (p :: ps) (piece ++ rest) := by
  rw [Covers] at hpiece
  split at hpiece
  next hp => exact hp ▸ h.star hpiece
  next hp =>
    split at hpiece
    next hq =>
      obtain ⟨c, hc, rfl⟩ := hpiece
      exact .char hp (by simp [standsFor, hq, hc]) h
    next hq =>
      subst hpiece
      exact .char hp (by simp [standsFor, hq]) h

theorem matches_iff_pieces {pattern text : List Char} : Matches pattern text ↔
    ∃ pieces, List.Forall₂ Covers pattern pieces ∧ pieces.flatten = text := by
  constructor
  · intro h
    induction h with
    | nil => exact ⟨[], .nil, rfl⟩
    | @char p c ps cs hp hc _ ih =>
      obtain ⟨pieces, hpieces, rfl⟩ := ih
      exact ⟨[c] :: pieces, .cons (covers_singleton hp hc) hpieces, rfl⟩
    | stop _ ih =>
      obtain ⟨pieces, hpieces, rfl⟩ := ih
      exact ⟨[] :: pieces, .cons List.not_mem_nil hpieces, rfl⟩
    | @pass c ps cs hc _ ih =>
      obtain ⟨_, hpieces, rfl⟩ := ih
      cases hpieces with
      | @cons _ piece _ pieces hpiece hpieces =>
        have hcovers : Covers '*' (c :: piece) := by
          change '\n' ∉ c :: piece
          rw [List.mem_cons, not_or]
          exact ⟨Ne.symm hc, hpiece⟩
        exact ⟨(c :: piece) :: pieces, .cons hcovers hpieces, rfl⟩
  · rintro ⟨pieces, hpieces, rfl⟩
    induction hpieces with
    | nil => exact .nil
    | cons hpiece _ ih => exact ih.cover hpiece

def StandsFor (pattern text : String) : Prop :=
  ∃ pieces, List.Forall₂ Covers pattern.toList pieces ∧ pieces.flatten = text.toList

theorem globMatches_iff_standsFor {pattern text : String} :
    globMatches pattern.toList text.toList ↔ StandsFor pattern text :=
  globMatches_iff.trans matches_iff_pieces

instance (pattern : String) : DecidablePred (StandsFor pattern) := fun _ =>
  decidable_of_iff _ globMatches_iff_standsFor

/-- What an expression consists of: the ends of the text, a character, and any one or any number of
characters other than a line feed. -/
inductive Part
  | start | stop | char (c : Char) | any | run
  deriving DecidableEq

namespace Part

def isMeta (c : Char) : Bool := "\\.+*?()|[]\x7b\x7d^$#&-~".toList.contains c

def escape (c : Char) : List Char := if isMeta c then ['\\', c] else [c]

def write : Part → List Char
  | .start => ['^']
  | .stop => ['$']
  | .char c => escape c
  | .any => ['.']
  | .run => ['.', '*']

def read? : List Char → Option (List Part)
  | [] => some []
  | '^' :: rest => (read? rest).map (.start :: ·)
  | '$' :: rest => (read? rest).map (.stop :: ·)
  | '.' :: '*' :: rest => (read? rest).map (.run :: ·)
  | '.' :: rest => (read? rest).map (.any :: ·)
  | '\\' :: c :: rest => if isMeta c then (read? rest).map (.char c :: ·) else none
  | c :: rest => if isMeta c then none else (read? rest).map (.char c :: ·)

theorem head?_flatMap_write (parts : List Part) : (parts.flatMap write).head? ≠ some '*' := by
  cases parts with
  | nil => exact nofun
  | cons part rest =>
    cases part with
    | char c =>
      rw [List.flatMap_cons, write, escape]
      split
      next => exact nofun
      next hc =>
        intro h
        cases h
        exact hc (by decide)
    | _ => exact nofun

theorem read?_any {rest : List Char} (h : rest.head? ≠ some '*') :
    read? ('.' :: rest) = (read? rest).map (.any :: ·) := by
  cases rest with
  | nil => rfl
  | cons c cs =>
    rw [read?]
    rintro cs' ⟨⟩
    exact h rfl

theorem read?_escape (c : Char) (rest : List Char) :
    read? (escape c ++ rest) = (read? rest).map (.char c :: ·) := by
  rw [escape]
  split
  next hc =>
    rw [List.cons_append, List.cons_append, read?, if_pos hc]
    rfl
  next hc =>
    have hne : c ≠ '^' ∧ c ≠ '$' ∧ c ≠ '.' ∧ c ≠ '\\' := by
      refine ⟨?_, ?_, ?_, ?_⟩ <;> exact fun he => hc (he ▸ by decide)
    rw [List.cons_append, read?, if_neg hc]
    · rfl
    all_goals simp [hne]

theorem read?_flatMap_write (parts : List Part) : read? (parts.flatMap write) = some parts := by
  induction parts with
  | nil => rfl
  | cons part rest ih =>
    rw [List.flatMap_cons]
    cases part with
    | start => exact congrArg (Option.map _) ih
    | stop => exact congrArg (Option.map _) ih
    | run => exact congrArg (Option.map _) ih
    | any => exact (read?_any (head?_flatMap_write rest)).trans (congrArg (Option.map _) ih)
    | char c => exact (read?_escape c _).trans (congrArg (Option.map _) ih)

/-- Whether parts lead from a place in a text, which is its start or not, on through what follows. -/
inductive Leads : List Part → Bool → List Char → Prop
  | nil {first rest} : Leads [] first rest
  | start {ps rest} : Leads ps true rest → Leads (.start :: ps) true rest
  | stop {ps first} : Leads ps first [] → Leads (.stop :: ps) first []
  | char {c ps first rest} : Leads ps false rest → Leads (.char c :: ps) first (c :: rest)
  | any {c ps first rest} : c ≠ '\n' → Leads ps false rest → Leads (.any :: ps) first (c :: rest)
  | done {ps first rest} : Leads ps first rest → Leads (.run :: ps) first rest
  | more {c ps first rest} : c ≠ '\n' → Leads (.run :: ps) false rest →
    Leads (.run :: ps) first (c :: rest)

def ofPattern (p : Char) : Part := if p = '*' then .run else if p = '?' then .any else .char p

end Part

def FoundIn (expression text : List Char) : Prop :=
  ∃ parts, Part.read? expression = some parts ∧
    ∃ before rest, before ++ rest = text ∧ Part.Leads parts before.isEmpty rest

def expression (pattern : List Char) : List Char :=
  '^' :: (pattern.flatMap (fun p => if p = '*' then ['.', '*'] else if p = '?' then ['.'] else Part.escape p) ++
    ['$'])

theorem expression_eq (pattern : List Char) :
    expression pattern = (.start :: (pattern.map Part.ofPattern ++ [.stop])).flatMap Part.write := by
  have hwrite : (fun p => if p = '*' then ['.', '*'] else if p = '?' then ['.'] else Part.escape p) =
      fun p => (Part.ofPattern p).write := by
    funext p
    rw [Part.ofPattern]
    split
    next => rfl
    next => split <;> rfl
  rw [expression, hwrite, List.flatMap_cons, List.flatMap_append, List.flatMap_map]
  rfl

theorem Matches.leads {pattern text : List Char} (h : Matches pattern text) (first : Bool) :
    Part.Leads (pattern.map Part.ofPattern ++ [.stop]) first text := by
  induction h generalizing first with
  | nil => exact .stop .nil
  | @char p c ps cs hp hc _ ih =>
    rw [List.map_cons, Part.ofPattern, if_neg hp]
    rw [standsFor] at hc
    split
    next hq => exact .any (by simpa [hq] using hc) (ih false)
    next hq =>
      obtain rfl : p = c := by simpa [hq] using hc
      exact .char (ih false)
  | stop _ ih => exact .done (ih first)
  | pass hc _ ih => exact .more hc (ih false)

theorem Part.Leads.exists_of_run {ps : List Part} {first : Bool} {text : List Char}
    (h : Leads (.run :: ps) first text) :
    ∃ piece rest first', piece ++ rest = text ∧ '\n' ∉ piece ∧ Leads ps first' rest := by
  generalize hparts : Part.run :: ps = parts at h
  induction h with
  | done h =>
    cases hparts
    exact ⟨[], _, _, rfl, List.not_mem_nil, h⟩
  | @more c _ _ _ hc _ ih =>
    obtain ⟨piece, rest, first', rfl, hpiece, hrest⟩ := ih hparts
    refine ⟨c :: piece, rest, first', rfl, ?_, hrest⟩
    rw [List.mem_cons, not_or]
    exact ⟨Ne.symm hc, hpiece⟩
  | _ => cases hparts

theorem matches_of_leads {pattern text : List Char} {first : Bool}
    (h : Part.Leads (pattern.map Part.ofPattern ++ [.stop]) first text) : Matches pattern text := by
  induction pattern generalizing first text with
  | nil =>
    cases h with
    | stop => exact .nil
  | cons p ps ih =>
    rw [List.map_cons, List.cons_append, Part.ofPattern] at h
    split at h
    next hp =>
      obtain ⟨piece, rest, first', rfl, hpiece, hrest⟩ := h.exists_of_run
      exact hp ▸ (ih hrest).star hpiece
    next hp =>
      split at h
      next hq =>
        cases h with
        | any hc h => exact .char hp (by simp [standsFor, hq, hc]) (ih h)
      next hq =>
        cases h with
        | char h => exact .char hp (by simp [standsFor, hq]) (ih h)

theorem foundIn_expression_iff {pattern text : String} :
    FoundIn (expression pattern.toList) text.toList ↔ StandsFor pattern text := by
  rw [StandsFor, ← matches_iff_pieces, FoundIn, expression_eq, Part.read?_flatMap_write]
  constructor
  · rintro ⟨_, ⟨⟩, before, rest, hsplit, h⟩
    rw [← hsplit]
    cases before with
    | nil =>
      cases h with
      | start h => exact matches_of_leads h
    | cons c cs => cases h
  · intro h
    exact ⟨_, rfl, [], _, rfl, .start (h.leads true)⟩

example : expression "a.b*".toList = "^a\\.b.*$".toList := by decide

end Corpus.Text
