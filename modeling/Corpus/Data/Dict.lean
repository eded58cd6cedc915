/-! Finite maps as lists of pairs with ascending keys.  Two maps with the same lookups are equal. -/

namespace Corpus

structure Dict (κ : Type u) (ν : Type v) [Ord κ] where
  entries : List (κ × ν)
  ascending : entries.Pairwise (fun a b => compare a.1 b.1 = .lt)

namespace Dict

variable {κ : Type u} {ν : Type v} [Ord κ]

@[ext] theorem ext {d e : Dict κ ν} (h : d.entries = e.entries) : d = e := by
  cases d; cases e; cases h; rfl

instance [DecidableEq κ] [DecidableEq ν] : DecidableEq (Dict κ ν) := fun d e =>
  decidable_of_iff (d.entries = e.entries) ⟨ext, fun h => h ▸ rfl⟩

def empty : Dict κ ν := ⟨[], .nil⟩

instance : Inhabited (Dict κ ν) := ⟨empty⟩

def find (k : κ) : List (κ × ν) → Option ν
  | [] => none
  | (k', v) :: rest => if compare k k' = .eq then some v else find k rest

def get? (d : Dict κ ν) (k : κ) : Option ν := find k d.entries

def contains (d : Dict κ ν) (k : κ) : Bool := (d.get? k).isSome

def keys (d : Dict κ ν) : List κ := d.entries.map (·.1)

def values (d : Dict κ ν) : List ν := d.entries.map (·.2)

def size (d : Dict κ ν) : Nat := d.entries.length

def isEmpty (d : Dict κ ν) : Bool := d.entries.isEmpty

/-- Replaces what `k` maps to by the answer of `f`; `none` stands for no entry on both sides. -/
def alterList (k : κ) (f : Option ν → Option ν) : List (κ × ν) → List (κ × ν)
  | [] => ((f none).map (k, ·)).toList
  | (k', v) :: rest =>
    match compare k k' with
    | .lt => ((f none).map (k, ·)).toList ++ (k', v) :: rest
    | .eq => ((f (some v)).map (k, ·)).toList ++ rest
    | .gt => (k', v) :: alterList k f rest

theorem mem_alterList {k : κ} {f : Option ν → Option ν} {a : κ × ν} {l : List (κ × ν)}
    (h : a ∈ alterList k f l) : a.1 = k ∨ a ∈ l := by
  induction l with
  | nil =>
    obtain ⟨v, -, rfl⟩ := by simpa [alterList] using h
    exact .inl rfl
  | cons b rest ih =>
    obtain ⟨k', v⟩ := b
    rw [alterList] at h
    split at h
    · rcases List.mem_append.1 h with h | h
      · obtain ⟨v, -, rfl⟩ := by simpa using h
        exact .inl rfl
      · exact .inr h
    · rcases List.mem_append.1 h with h | h
      · obtain ⟨v, -, rfl⟩ := by simpa using h
        exact .inl rfl
      · exact .inr (.tail _ h)
    · rcases List.mem_cons.1 h with h | h
      · exact .inr (h ▸ .head _)
      · exact (ih h).imp_right (.tail _)

variable [Std.TransOrd κ] [Std.LawfulEqOrd κ]

theorem pairwise_alterList (k : κ) (f : Option ν → Option ν) {l : List (κ × ν)}
    (h : l.Pairwise (fun a b => compare a.1 b.1 = .lt)) :
    (alterList k f l).Pairwise (fun a b => compare a.1 b.1 = .lt) := by
  induction l with
  | nil => rw [alterList]; cases f none <;> simp
  | cons b rest ih =>
    obtain ⟨k', v⟩ := b
    have hb : ∀ a ∈ rest, compare k' a.1 = .lt := fun a => List.rel_of_pairwise_cons h
    rw [alterList]
    split
    next hk =>
      cases f none with
      | none => exact h
      | some w =>
        refine .cons (fun a ha => ?_) h
        rcases List.mem_cons.1 ha with rfl | ha
        · exact hk
        · exact Std.TransCmp.lt_trans hk (hb a ha)
    next hk =>
      cases f (some v) with
      | none => exact h.of_cons
      | some w => exact .cons (fun a ha => Std.LawfulEqCmp.eq_of_compare hk ▸ hb a ha) h.of_cons
    next hk =>
      refine .cons (fun a ha => ?_) (ih h.of_cons)
      rcases mem_alterList ha with ha | ha
      · rw [ha]; exact Std.OrientedCmp.lt_of_gt hk
      · exact hb a ha

def alter (d : Dict κ ν) (k : κ) (f : Option ν → Option ν) : Dict κ ν :=
  ⟨alterList k f d.entries, pairwise_alterList k f d.ascending⟩

def insert (d : Dict κ ν) (k : κ) (v : ν) : Dict κ ν := d.alter k fun _ => some v

def erase (d : Dict κ ν) (k : κ) : Dict κ ν := d.alter k fun _ => none

def ofList (l : List (κ × ν)) : Dict κ ν := l.foldl (fun d (k, v) => d.insert k v) empty

omit [Std.TransOrd κ] [Std.LawfulEqOrd κ] in
theorem find_eq_none {k : κ} {l : List (κ × ν)} (h : ∀ a ∈ l, compare k a.1 = .lt) :
    find k l = none := by
  induction l with
  | nil => rfl
  | cons b rest ih =>
    rw [find, if_neg (by simp [h b (.head _)]), ih fun a ha => h a (.tail _ ha)]

theorem find_alterList [DecidableEq κ] (k j : κ) (f : Option ν → Option ν) {l : List (κ × ν)}
    (h : l.Pairwise (fun a b => compare a.1 b.1 = .lt)) :
    find j (alterList k f l) = if j = k then f (find k l) else find j l := by
  induction l with
  | nil =>
    rw [alterList]
    by_cases hj : j = k <;> cases hf : f none <;> simp [find, hj, hf]
  | cons b rest ih =>
    obtain ⟨k', v⟩ := b
    have hb : ∀ a ∈ rest, compare k' a.1 = .lt := fun a => List.rel_of_pairwise_cons h
    rw [alterList]
    split
    next hk =>
      have hn : find k ((k', v) :: rest) = none := find_eq_none fun a ha => by
        rcases List.mem_cons.1 ha with rfl | ha
        · exact hk
        · exact Std.TransCmp.lt_trans hk (hb a ha)
      by_cases hj : j = k
      · subst hj; rw [if_pos rfl, hn]; cases f none with
        | none => simpa [find] using hn
        | some v => simp [find]
      · rw [if_neg hj]; cases f none <;> simp [find, hj]
    next hk =>
      obtain rfl := Std.LawfulEqCmp.eq_of_compare hk
      by_cases hj : j = k
      · subst hj; rw [if_pos rfl]; cases hf : f (some v) <;> simp [find, hf, find_eq_none hb]
      · rw [if_neg hj]; cases f (some v) <;> simp [find, hj]
    next hk =>
      have hne : k ≠ k' := fun e => by simp [e] at hk
      by_cases hj : j = k'
      · subst hj; simp [find, hne.symm]
      · simp [find, hj, hne, ih h.of_cons]

theorem get?_alter [DecidableEq κ] (d : Dict κ ν) (k j : κ) (f : Option ν → Option ν) :
    (d.alter k f).get? j = if j = k then f (d.get? k) else d.get? j :=
  find_alterList k j f d.ascending

omit [Std.TransOrd κ] [Std.LawfulEqOrd κ] in
@[simp] theorem get?_empty (k : κ) : (empty : Dict κ ν).get? k = none := rfl

@[simp] theorem get?_insert [DecidableEq κ] (d : Dict κ ν) (k j : κ) (v : ν) :
    (d.insert k v).get? j = if j = k then some v else d.get? j := get?_alter ..

@[simp] theorem get?_erase [DecidableEq κ] (d : Dict κ ν) (k j : κ) :
    (d.erase k).get? j = if j = k then none else d.get? j := get?_alter ..

omit [Std.TransOrd κ] in
theorem get?_eq_some_iff {d : Dict κ ν} {k : κ} {v : ν} :
    d.get? k = some v ↔ (k, v) ∈ d.entries := by
  obtain ⟨l, h⟩ := d
  show find k l = some v ↔ (k, v) ∈ l
  induction l with
  | nil => simp [find]
  | cons b rest ih =>
    obtain ⟨k', w⟩ := b
    have hb : ∀ a ∈ rest, compare k' a.1 = .lt := fun a => List.rel_of_pairwise_cons h
    by_cases hk : k = k'
    · subst hk
      have : (k, v) ∉ rest := fun hm => by simpa using hb _ hm
      simp [find, this, eq_comm]
    · simp [find, hk, ih h.of_cons]

omit [Std.TransOrd κ] in
theorem mem_keys_iff {d : Dict κ ν} {k : κ} : k ∈ d.keys ↔ (d.get? k).isSome := by
  simp only [keys, List.mem_map, Option.isSome_iff_exists, get?_eq_some_iff]
  exact ⟨fun ⟨⟨_, v⟩, h, e⟩ => ⟨v, e ▸ h⟩, fun ⟨v, h⟩ => ⟨_, h, rfl⟩⟩

theorem ext_get? {d e : Dict κ ν} (h : ∀ k, d.get? k = e.get? k) : d = e := by
  refine ext (List.Perm.eq_of_pairwise (fun a b _ _ hab hba => ?_) d.ascending e.ascending ?_)
  · simp [Std.OrientedCmp.gt_of_lt hab] at hba
  · have nodup (d : Dict κ ν) : d.entries.Nodup :=
      d.ascending.imp fun {a b} hab he => by simp [he] at hab
    refine (List.perm_ext_iff_of_nodup (nodup d) (nodup e)).2 fun ⟨k, v⟩ => ?_
    rw [← get?_eq_some_iff, ← get?_eq_some_iff, h]

def mapValues (g : ν → μ) (d : Dict κ ν) : Dict κ μ :=
  ⟨d.entries.map fun (k, v) => (k, g v), List.pairwise_map.2 d.ascending⟩

def nonempty? (d : Dict κ ν) : Option (Dict κ ν) := if d.isEmpty then none else some d

def filter (p : κ → ν → Bool) (d : Dict κ ν) : Dict κ ν :=
  ⟨d.entries.filter fun (k, v) => p k v, d.ascending.filter _⟩

end Dict

end Corpus
