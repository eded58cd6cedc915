import Corpus.Data.DocSet
import Corpus.Data.Total
import Mathlib.Algebra.GroupWithZero.Nat

/-! Laws of finite maps through their lookups, and through their values up to order. -/

namespace Corpus

namespace Dict

variable {κ : Type u} {ν : Type v} [Ord κ] [Std.LawfulEqOrd κ]

theorem mem_values_iff {d : Dict κ ν} {v : ν} : v ∈ d.values ↔ ∃ k, d.get? k = some v := by
  simp only [values, List.mem_map, get?_eq_some_iff]
  constructor
  · intro ⟨⟨k, w⟩, h, e⟩
    exact ⟨k, e ▸ h⟩
  · intro ⟨k, h⟩
    exact ⟨_, h, rfl⟩

@[simp] theorem get?_mapValues (g : ν → μ) (d : Dict κ ν) (k : κ) :
    (d.mapValues g).get? k = (d.get? k).map g := by
  obtain ⟨l, h⟩ := d
  change find k (l.map _) = (find k l).map g
  clear h
  induction l with
  | nil => rfl
  | cons a rest ih => by_cases hk : k = a.1 <;> simp [find, hk, ih]

theorem get?_filter_eq_some {p : κ → ν → Bool} {d : Dict κ ν} {k : κ} {v : ν} :
    (d.filter p).get? k = some v ↔ d.get? k = some v ∧ p k v := by
  rw [get?_eq_some_iff, get?_eq_some_iff]
  exact List.mem_filter

theorem get?_eq_none_of_isEmpty {d : Dict κ ν} (h : d.isEmpty) (k : κ) : d.get? k = none := by
  cases hv : d.get? k with
  | none => rfl
  | some v =>
    rw [get?_eq_some_iff, List.isEmpty_iff.1 h] at hv
    cases hv

@[simp] theorem bind_nonempty?_get? (d : Dict κ ν) (k : κ) :
    d.nonempty?.bind (·.get? k) = d.get? k := by
  by_cases h : d.isEmpty
  · simp [nonempty?, h, get?_eq_none_of_isEmpty h]
  · simp [nonempty?, h]

omit [Std.LawfulEqOrd κ] in
@[simp] theorem getD_empty_get? (o : Option (Dict κ ν)) (k : κ) :
    (o.getD .empty).get? k = o.bind (·.get? k) := by
  cases o <;> rfl

omit [Std.LawfulEqOrd κ] in
theorem find_append {k : κ} {before : List (κ × ν)} (h : ∀ a ∈ before, compare k a.1 = .gt)
    (rest : List (κ × ν)) : find k (before ++ rest) = find k rest := by
  induction before with
  | nil => rfl
  | cons a before ih =>
    rw [List.forall_mem_cons] at h
    rw [List.cons_append, find, h.1, if_neg (by decide), ih h.2]

omit [Std.LawfulEqOrd κ] in
theorem alterList_append {k : κ} {before : List (κ × ν)} (h : ∀ a ∈ before, compare k a.1 = .gt)
    (f : Option ν → Option ν) (rest : List (κ × ν)) :
    alterList k f (before ++ rest) = before ++ alterList k f rest := by
  induction before with
  | nil => rfl
  | cons a before ih =>
    rw [List.forall_mem_cons] at h
    rw [List.cons_append, alterList, h.1, ih h.2, List.cons_append]

omit [Std.LawfulEqOrd κ] in
theorem alterList_of_lt {k : κ} {after : List (κ × ν)} (h : ∀ a ∈ after, compare k a.1 = .lt)
    (f : Option ν → Option ν) : alterList k f after = ((f none).map (k, ·)).toList ++ after := by
  cases after with
  | nil => rw [alterList, List.append_nil]
  | cons a after => rw [alterList, h a (.head _)]

omit [Std.LawfulEqOrd κ] in
theorem size_eq_length_values (d : Dict κ ν) : d.size = d.values.length :=
  (List.length_map _).symm

theorem nodup_keys (d : Dict κ ν) : d.keys.Nodup :=
  List.pairwise_map.2 (d.ascending.imp fun {a b} hab he => by simp [he] at hab)

omit [Std.LawfulEqOrd κ] in
theorem length_keys (d : Dict κ ν) : d.keys.length = d.size := List.length_map _

theorem nodup_entries (d : Dict κ ν) : d.entries.Nodup :=
  d.ascending.imp fun {a b} hab he => by simp [he] at hab

def filterMapValues (g : ν → Option μ) (d : Dict κ ν) : Dict κ μ :=
  ⟨d.entries.filterMap fun (k, v) => (g v).map (k, ·),
    List.pairwise_filterMap.2 <| d.ascending.imp fun {a b} hab c hc e he => by
      obtain ⟨v, -, rfl⟩ := Option.map_eq_some_iff.1 hc
      obtain ⟨w, -, rfl⟩ := Option.map_eq_some_iff.1 he
      exact hab⟩

@[simp] theorem get?_filterMapValues (g : ν → Option μ) (d : Dict κ ν) (k : κ) :
    (d.filterMapValues g).get? k = (d.get? k).bind g := by
  apply Option.ext
  intro w
  simp only [get?_eq_some_iff, filterMapValues, List.mem_filterMap, Option.bind_eq_some_iff]
  constructor
  · intro ⟨⟨j, v⟩, hm, he⟩
    obtain ⟨u, hu, e⟩ := Option.map_eq_some_iff.1 he
    cases e
    exact ⟨v, hm, hu⟩
  · intro ⟨v, hm, hw⟩
    exact ⟨(k, v), hm, by simp [hw]⟩

omit [Std.LawfulEqOrd κ] in
theorem values_filterMapValues (g : ν → Option μ) (d : Dict κ ν) :
    (d.filterMapValues g).values = d.values.filterMap g := by
  simp only [values, filterMapValues, List.map_filterMap, List.filterMap_map]
  congr 1
  funext a
  cases h : g a.2 <;> simp [h]

variable [Std.TransOrd κ] [DecidableEq κ]

theorem values_insert_perm {d : Dict κ ν} {k : κ} (h : d.get? k = none) (v : ν) :
    (d.insert k v).values.Perm (v :: d.values) := by
  have hp : (d.insert k v).entries.Perm ((k, v) :: d.entries) := by
    refine (List.perm_ext_iff_of_nodup (nodup_entries _) ?_).2 fun ⟨j, w⟩ => ?_
    · rw [List.nodup_cons, ← get?_eq_some_iff, h]
      exact ⟨nofun, nodup_entries d⟩
    · rw [← get?_eq_some_iff, get?_insert, List.mem_cons, ← get?_eq_some_iff, Prod.mk.injEq]
      by_cases hj : j = k
      · simp [hj, h, eq_comm]
      · simp [hj]
  exact hp.map (·.2)

theorem values_erase_perm {d : Dict κ ν} {k : κ} {v : ν} (h : d.get? k = some v) :
    d.values.Perm (v :: (d.erase k).values) := by
  have hd : d = (d.erase k).insert k v := ext_get? fun j => by
    by_cases hj : j = k <;> simp [hj, h]
  have hp := values_insert_perm (d := d.erase k) (k := k) (by simp) v
  rwa [← hd] at hp

end Dict

theorem DocSet.isEmpty_iff {s : DocSet} : s.isEmpty ↔ ∀ d, d ∉ s := by
  rw [isEmpty, List.isEmpty_iff, List.eq_nil_iff_forall_not_mem]
  rfl

theorem DocSet.not_isEmpty_iff {s : DocSet} : (!s.isEmpty) = true ↔ ∃ d, d ∈ s := by
  rw [Bool.not_eq_true', ← Bool.not_eq_true, isEmpty_iff]
  simp

@[simp] theorem DocSet.mem_unions_map {l : List α} {f : α → DocSet} {d : Nat} :
    d ∈ unions (l.map f) ↔ ∃ a ∈ l, d ∈ f a := by
  rw [mem_unions]
  constructor
  · intro ⟨s, hs, hd⟩
    obtain ⟨a, ha, rfl⟩ := List.mem_map.1 hs
    exact ⟨a, ha, hd⟩
  · intro ⟨a, ha, hd⟩
    exact ⟨f a, List.mem_map.2 ⟨a, ha, rfl⟩, hd⟩

@[simp] theorem DocSet.get?_toDict (s : DocSet) (f : Nat → ν) (doc : Nat) :
    (s.toDict f).get? doc = if doc ∈ s then some (f doc) else none := by
  apply Option.ext
  intro w
  rw [Dict.get?_eq_some_iff]
  simp only [toDict, List.mem_map, Prod.mk.injEq, ← mem_def]
  by_cases h : doc ∈ s
  · simp only [h, if_true, Option.some.injEq]
    constructor
    · intro ⟨d, _, hd, hw⟩
      rw [← hw, hd]
    · intro hw
      exact ⟨doc, h, rfl, hw⟩
  · simp only [h, if_false, reduceCtorEq, iff_false]
    intro ⟨d, hd, he, _⟩
    exact h (he ▸ hd)

@[simp] theorem total_eq_sum (counts : List Nat) : total counts = counts.sum := rfl

end Corpus
