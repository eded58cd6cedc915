import Corpus.Proofs.Data.Dict
import Mathlib.Data.List.Forall2
import Mathlib.Data.List.Induction

/-! Lists in groups by a key.  The groups one after the other have the elements of the list, and what is
found for these, each at a place of its own, is put back into the order of the places. -/

namespace Corpus

section Groups

variable {α : Type u} {κ : Type v} [DecidableEq κ] {key : α → κ} {keys : List κ}

def grouped (key : α → κ) (keys : List κ) (l : List α) : List α :=
  keys.flatMap fun k => l.filter (key · = k)

theorem grouped_perm (hn : keys.Nodup) (l : List α) :
    (grouped key keys l).Perm (l.filter (key · ∈ keys)) := by
  induction keys with
  | nil => simp [grouped]
  | cons k rest ih =>
    rw [List.nodup_cons] at hn
    have hsplit := List.filter_append_perm (key · = k) (l.filter (key · ∈ k :: rest))
    rw [List.filter_filter, List.filter_filter] at hsplit
    have hfirst : (l.filter fun a => decide (key a = k) && decide (key a ∈ k :: rest)) =
        l.filter (key · = k) :=
      List.filter_congr fun a _ => by by_cases h : key a = k <;> simp [h]
    have hrest : (l.filter fun a => (!decide (key a = k)) && decide (key a ∈ k :: rest)) =
        l.filter (key · ∈ rest) := by
      refine List.filter_congr fun a _ => ?_
      by_cases h : key a = k
      · simp [h, hn.1]
      · simp [h]
    rw [hfirst, hrest] at hsplit
    rw [grouped, List.flatMap_cons]
    exact ((ih hn.2).append_left _).trans hsplit

theorem filter_grouped (hn : keys.Nodup) (l : List α) (k : κ) :
    (grouped key keys l).filter (key · = k) = if k ∈ keys then l.filter (key · = k) else [] := by
  induction keys with
  | nil => rfl
  | cons k' rest ih =>
    rw [List.nodup_cons] at hn
    have hrest := ih hn.2
    rw [grouped] at hrest ⊢
    rw [List.flatMap_cons, List.filter_append, hrest, List.filter_filter]
    by_cases hk : k = k'
    · subst hk
      simp [hn.1]
    · have hnil : (l.filter fun a => decide (key a = k) && decide (key a = k')) = [] :=
        List.filter_eq_nil_iff.2 fun a _ h => by
          simp only [Bool.and_eq_true, decide_eq_true_eq] at h
          exact hk (h.1.symm.trans h.2)
      simp [hnil, hk]

end Groups

section Places

variable {α : Type u} {β : Type v}

theorem filter_map_eq {f : α → β} {p : β → Bool} {q : α → Bool} (h : ∀ a, p (f a) = q a)
    (l : List α) : (l.map f).filter p = (l.filter q).map f := by
  rw [List.filter_map]
  congr 2
  exact funext h

theorem pairwise_zipIdx (l : List α) : l.zipIdx.Pairwise fun a b => compare a.2 b.2 = .lt := by
  have hplaces : (l.zipIdx.map Prod.snd).Pairwise (· < ·) := by
    rw [List.zipIdx_map_snd]
    exact List.pairwise_lt_range'
  exact (List.pairwise_map.1 hplaces).imp fun h => Nat.compare_eq_lt.2 h

theorem nodup_zipIdx (l : List α) : l.zipIdx.Nodup :=
  (pairwise_zipIdx l).imp fun {a b} hab he => by simp [he] at hab

end Places

theorem exists_eq_map_of_forall₂ {α : Type u} [DecidableEq α] {R : α → α → Prop} {l m : List α}
    (h : List.Forall₂ R l m) (hn : l.Nodup) : ∃ f : α → α, m = l.map f ∧ ∀ a ∈ l, R a (f a) := by
  induction h with
  | nil => exact ⟨id, rfl, nofun⟩
  | @cons a b l m hab _ ih =>
    obtain ⟨ha, hl⟩ := List.nodup_cons.1 hn
    obtain ⟨f, rfl, hf⟩ := ih hl
    refine ⟨fun a' => if a' = a then b else f a', ?_, fun a' ha' => ?_⟩
    · have hrest : l.map f = l.map fun a' => if a' = a then b else f a' :=
        List.map_congr_left fun a' ha' => by
          have hne : a' ≠ a := fun he => ha (he ▸ ha')
          rw [if_neg hne]
      rw [List.map_cons, if_pos rfl, hrest]
    · dsimp only
      split
      next he => rwa [he]
      next he => exact hf a' ((List.mem_cons.1 ha').resolve_left he)

namespace Dict

variable {κ : Type u} {ν : Type v} [Ord κ] [Std.LawfulEqOrd κ] [Std.TransOrd κ] [DecidableEq κ]
  {l m : List (κ × ν)}

theorem get?_ofList (hn : (l.map (·.1)).Nodup) {k : κ} {v : ν} :
    (ofList l).get? k = some v ↔ (k, v) ∈ l := by
  induction l using List.reverseRecOn with
  | nil => exact ⟨nofun, nofun⟩
  | append_singleton l a ih =>
    rw [List.map_append, List.nodup_append] at hn
    obtain ⟨hl, -, hne⟩ := hn
    rw [ofList, List.foldl_append, List.foldl_cons, List.foldl_nil, get?_insert, List.mem_append,
      List.mem_singleton, Prod.ext_iff]
    by_cases hk : k = a.1
    · have hnew : (k, v) ∉ l := fun h =>
        hne k (List.mem_map.2 ⟨_, h, rfl⟩) a.1 (List.mem_singleton.2 rfl) hk
      simp [hk ▸ hnew, hk, eq_comm]
    · rw [if_neg hk, ← ofList, ih hl]
      simp [hk]

theorem entries_ofList (hm : m.Pairwise fun a b => compare a.1 b.1 = .lt) (hp : l.Perm m) :
    (ofList l).entries = m := by
  let d : Dict κ ν := ⟨m, hm⟩
  have hn : (l.map (·.1)).Nodup := (hp.map _).nodup_iff.2 (nodup_keys d)
  have hd : ofList l = d := ext_get? fun k => Option.ext fun v => by
    rw [get?_ofList hn, get?_eq_some_iff]
    exact hp.mem_iff
  rw [hd]

end Dict

end Corpus
