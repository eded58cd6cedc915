import Corpus.Data.Dict

/-! Sets of natural numbers as ascending lists.  Two sets with the same members are equal. -/

namespace Corpus

structure DocSet where
  toList : List Nat
  ascending : toList.Pairwise (· < ·)
  deriving DecidableEq

namespace DocSet

instance : Membership Nat DocSet := ⟨fun s d => d ∈ s.toList⟩

theorem mem_def {d : Nat} {s : DocSet} : d ∈ s ↔ d ∈ s.toList := .rfl

instance (d : Nat) (s : DocSet) : Decidable (d ∈ s) := inferInstanceAs (Decidable (d ∈ s.toList))

@[ext] theorem ext {s t : DocSet} (h : ∀ d, d ∈ s ↔ d ∈ t) : s = t := by
  obtain ⟨s, hs⟩ := s
  obtain ⟨t, ht⟩ := t
  have nodup {l : List Nat} (h : l.Pairwise (· < ·)) : l.Nodup := h.imp Nat.ne_of_lt
  have := List.Perm.eq_of_pairwise (fun a b _ _ hab hba => absurd hab (Nat.lt_asymm hba)) hs ht
    ((List.perm_ext_iff_of_nodup (nodup hs) (nodup ht)).2 h)
  subst this; rfl

def empty : DocSet := ⟨[], .nil⟩

instance : Inhabited DocSet := ⟨empty⟩

def isEmpty (s : DocSet) : Bool := s.toList.isEmpty

def size (s : DocSet) : Nat := s.toList.length

def insertList (d : Nat) : List Nat → List Nat
  | [] => [d]
  | e :: rest => if d < e then d :: e :: rest else if d = e then e :: rest else e :: insertList d rest

theorem mem_insertList {d a : Nat} {l : List Nat} : a ∈ insertList d l ↔ a = d ∨ a ∈ l := by
  induction l with
  | nil => simp [insertList]
  | cons e rest ih => grind [insertList]

theorem pairwise_insertList (d : Nat) {l : List Nat} (h : l.Pairwise (· < ·)) :
    (insertList d l).Pairwise (· < ·) := by
  induction l with
  | nil => simp [insertList]
  | cons e rest ih =>
    have he : ∀ a ∈ rest, e < a := fun a => List.rel_of_pairwise_cons h
    rw [insertList]
    split
    next hd =>
      refine .cons (fun a ha => ?_) h
      rcases List.mem_cons.1 ha with rfl | ha
      · exact hd
      · exact Nat.lt_trans hd (he a ha)
    next hd =>
      split
      · exact h
      · refine .cons (fun a ha => ?_) (ih h.of_cons)
        rcases mem_insertList.1 ha with rfl | ha
        · omega
        · exact he a ha

def insert (s : DocSet) (d : Nat) : DocSet := ⟨insertList d s.toList, pairwise_insertList d s.ascending⟩

def filter (p : Nat → Bool) (s : DocSet) : DocSet := ⟨s.toList.filter p, s.ascending.filter p⟩

def erase (s : DocSet) (d : Nat) : DocSet := s.filter (· ≠ d)

def inter (s t : DocSet) : DocSet := s.filter (· ∈ t)

def diff (s t : DocSet) : DocSet := s.filter (· ∉ t)

def ofList (l : List Nat) : DocSet := l.foldl insert empty

def union (s t : DocSet) : DocSet := t.toList.foldl insert s

def unions (sets : List DocSet) : DocSet := sets.foldl union empty

@[simp] theorem mem_empty (d : Nat) : d ∉ empty := List.not_mem_nil

@[simp] theorem mem_insert {s : DocSet} {d a : Nat} : a ∈ s.insert d ↔ a = d ∨ a ∈ s :=
  mem_insertList

@[simp] theorem mem_filter {p : Nat → Bool} {s : DocSet} {d : Nat} :
    d ∈ s.filter p ↔ d ∈ s ∧ p d := List.mem_filter

@[simp] theorem mem_erase {s : DocSet} {d a : Nat} : a ∈ s.erase d ↔ a ∈ s ∧ a ≠ d := by
  simp [erase]

@[simp] theorem mem_inter {s t : DocSet} {d : Nat} : d ∈ s.inter t ↔ d ∈ s ∧ d ∈ t := by
  simp [inter]

@[simp] theorem mem_diff {s t : DocSet} {d : Nat} : d ∈ s.diff t ↔ d ∈ s ∧ d ∉ t := by
  simp [diff]

theorem mem_foldl_insert {l : List Nat} {s : DocSet} {d : Nat} :
    d ∈ l.foldl insert s ↔ d ∈ s ∨ d ∈ l := by
  induction l generalizing s with
  | nil => simp
  | cons e rest ih => simp [ih, or_assoc, or_left_comm]

@[simp] theorem mem_ofList {l : List Nat} {d : Nat} : d ∈ ofList l ↔ d ∈ l := by
  simp [ofList, mem_foldl_insert]

@[simp] theorem mem_union {s t : DocSet} {d : Nat} : d ∈ s.union t ↔ d ∈ s ∨ d ∈ t :=
  mem_foldl_insert

@[simp] theorem mem_unions {sets : List DocSet} {d : Nat} :
    d ∈ unions sets ↔ ∃ s ∈ sets, d ∈ s := by
  suffices ∀ t, d ∈ sets.foldl union t ↔ d ∈ t ∨ ∃ s ∈ sets, d ∈ s by simp [unions, this]
  induction sets with
  | nil => simp
  | cons s rest ih => simp [ih, or_assoc]

end DocSet

def Dict.docs (d : Dict Nat ν) : DocSet :=
  ⟨d.keys, List.pairwise_map.2 (d.ascending.imp Nat.compare_eq_lt.1)⟩

@[simp] theorem Dict.mem_docs {d : Dict Nat ν} {k : Nat} : k ∈ d.docs ↔ (d.get? k).isSome :=
  Dict.mem_keys_iff

def DocSet.toDict (s : DocSet) (f : Nat → ν) : Dict Nat ν :=
  ⟨s.toList.map fun d => (d, f d), List.pairwise_map.2 (s.ascending.imp Nat.compare_eq_lt.2)⟩

end Corpus
