import Corpus.Text.Blank
import Mathlib.Data.List.TakeWhile

/-! Text without white space at its ends. -/

namespace Corpus.Text

variable {s : List Char}

structure Bare (s : List Char) : Prop where
  first : ∀ c, s.head? = some c → isBlank c = false
  last : ∀ c, s.getLast? = some c → isBlank c = false

theorem Bare.of_forall (h : ∀ c ∈ s, isBlank c = false) : Bare s where
  first c hc := h c (List.mem_of_head? hc)
  last c hc := h c (List.mem_of_getLast? hc)

theorem dropWhile_eq_self (h : ∀ c, s.head? = some c → isBlank c = false) :
    s.dropWhile isBlank = s := by
  cases s with
  | nil => rfl
  | cons c rest => rw [List.dropWhile_cons, h c rfl, if_neg Bool.false_ne_true]

theorem head?_dropWhile {c : Char} (h : (s.dropWhile isBlank).head? = some c) : isBlank c = false := by
  have hnot := List.head?_dropWhile_not isBlank s
  rw [h] at hnot
  simpa using hnot

theorem trim_of_bare (h : Bare s) : trim s = s := by
  have hlast : s.reverse.dropWhile isBlank = s.reverse :=
    dropWhile_eq_self fun c hc => h.last c (List.head?_reverse ▸ hc)
  rw [trim, trimStart, dropWhile_eq_self h.first, trimEnd, hlast, List.reverse_reverse]

theorem bare_trim (s : List Char) : Bare (trim s) where
  first c hc := by
    have hprefix : trim s <+: trimStart s := by
      rw [trim, trimEnd, ← List.reverse_suffix, List.reverse_reverse]
      exact List.dropWhile_suffix _
    obtain ⟨rest, hrest⟩ := hprefix
    refine head?_dropWhile (s := s) ?_
    rw [← trimStart, ← hrest, List.head?_append, hc]
    rfl
  last c hc := by
    rw [trim, trimEnd, List.getLast?_reverse] at hc
    exact head?_dropWhile hc

theorem isBlank_of_trim_eq_nil (h : trim s = []) : ∀ c ∈ s, isBlank c := by
  rw [trim, trimEnd, List.reverse_eq_nil_iff, List.dropWhile_eq_nil_iff] at h
  cases hstart : trimStart s with
  | nil => exact List.dropWhile_eq_nil_iff.1 hstart
  | cons c rest =>
    have hblank : isBlank c := h c (List.mem_reverse.2 (hstart ▸ .head _))
    have hfirst : (s.dropWhile isBlank).head? = some c := congrArg List.head? hstart
    exact absurd hblank (Bool.eq_false_iff.1 (head?_dropWhile hfirst))

theorem trimmed_of_forall {s : String} (h : ∀ c ∈ s.toList, isBlank c = false) : trimmed s = s := by
  rw [trimmed, trim_of_bare (.of_forall h), String.ofList_toList]

end Corpus.Text
