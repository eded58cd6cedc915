import Corpus.Proofs.Data.Dict
import Corpus.Proofs.Data.Grouping

/-! Maps of maps without empty parts.  Such a map is known by the lookups at its leaves, where a map that
is empty and one that is missing would look the same. -/

namespace Corpus

namespace Dict

variable {κ : Type u} {ν : Type v} {κ' : Type w} [Ord κ] [Ord κ'] {P : ν → Prop}

def All (P : ν → Prop) (d : Dict κ ν) : Prop := ∀ ⦃k v⦄, d.get? k = some v → P v

/-- Whether no map within the map is empty and all their values are as `P` says. -/
def Filled (P : ν → Prop) (d : Dict κ (Dict κ' ν)) : Prop := d.All fun e => e.isEmpty = false ∧ e.All P

theorem All.empty : (empty : Dict κ ν).All P := nofun

theorem Filled.getD {d : Dict κ (Dict κ' ν)} (h : d.Filled P) (k : κ) :
    ((d.get? k).getD .empty).All P := by
  cases hk : d.get? k with
  | none => exact .empty
  | some inner => exact (h hk).2

theorem Filled.of_bind_get? {d : Dict κ (Dict κ' ν)} (h : d.Filled P) {k : κ} {j : κ'} {v : ν}
    (hv : (d.get? k).bind (·.get? j) = some v) : P v := by
  obtain ⟨inner, hk, hj⟩ := Option.bind_eq_some_iff.1 hv
  exact (h hk).2 hj

theorem nonempty?_eq_some {d e : Dict κ ν} (h : d.nonempty? = some e) : e = d ∧ d.isEmpty = false := by
  rw [nonempty?] at h
  split at h
  next => cases h
  next hd => exact ⟨(Option.some.inj h).symm, Bool.eq_false_iff.2 hd⟩

variable [Std.LawfulEqOrd κ]

theorem isEmpty_eq_false {d : Dict κ ν} {k : κ} {v : ν} (h : d.get? k = some v) : d.isEmpty = false := by
  refine Bool.eq_false_iff.2 fun he => ?_
  rw [get?_eq_none_of_isEmpty he] at h
  cases h

theorem exists_get? {d : Dict κ ν} (h : d.isEmpty = false) : ∃ k v, d.get? k = some v := by
  obtain ⟨e, he⟩ := List.exists_mem_of_ne_nil d.entries (mt List.isEmpty_iff.2 (Bool.eq_false_iff.1 h))
  exact ⟨e.1, e.2, get?_eq_some_iff.2 he⟩

variable [Std.TransOrd κ]

theorem eq_of_bind_get? {o o' : Option (Dict κ ν)} (ho : ∀ d, o = some d → d.isEmpty = false)
    (ho' : ∀ d, o' = some d → d.isEmpty = false)
    (h : ∀ k, o.bind (·.get? k) = o'.bind (·.get? k)) : o = o' := by
  cases o with
  | none =>
    cases o' with
    | none => rfl
    | some d =>
      obtain ⟨k, v, hv⟩ := exists_get? (ho' d rfl)
      exact nomatch (h k).trans hv
  | some d =>
    cases o' with
    | none =>
      obtain ⟨k, v, hv⟩ := exists_get? (ho d rfl)
      exact nomatch (h k).symm.trans hv
    | some e => exact congrArg some (ext_get? h)

theorem Filled.eq [Std.LawfulEqOrd κ'] [Std.TransOrd κ'] {d e : Dict κ (Dict κ' ν)} (hd : d.Filled P)
    (he : e.Filled P) (h : ∀ k j, (d.get? k).bind (·.get? j) = (e.get? k).bind (·.get? j)) : d = e :=
  ext_get? fun k => eq_of_bind_get? (fun _ hk => (hd hk).1) (fun _ hk => (he hk).1) (h k)

variable [DecidableEq κ]

theorem All.alter {d : Dict κ ν} (h : d.All P) {k : κ} {f : Option ν → Option ν}
    (hf : ∀ v, f (d.get? k) = some v → P v) : (d.alter k f).All P := by
  intro j v hv
  rw [get?_alter] at hv
  split at hv
  next => exact hf v hv
  next => exact h hv

theorem isEmpty_alter {d : Dict κ ν} {k : κ} {f : Option ν → Option ν} {v : ν}
    (h : f (d.get? k) = some v) : (d.alter k f).isEmpty = false :=
  isEmpty_eq_false ((get?_alter d k k f).trans ((if_pos rfl).trans h))

end Dict

namespace DocSet

@[simp] theorem isEmpty_insert (s : DocSet) (doc : Nat) : (s.insert doc).isEmpty = false := by
  refine Bool.eq_false_iff.2 fun he => ?_
  exact isEmpty_iff.1 he doc (mem_insert.2 (.inl rfl))

theorem exists_mem {s : DocSet} (h : s.isEmpty = false) : ∃ doc, doc ∈ s := by
  rwa [← not_isEmpty_iff, Bool.not_eq_true']

theorem eq_of_mem_getD {o o' : Option DocSet} (ho : ∀ s, o = some s → s.isEmpty = false)
    (ho' : ∀ s, o' = some s → s.isEmpty = false)
    (h : ∀ doc, doc ∈ o.getD .empty ↔ doc ∈ o'.getD .empty) : o = o' := by
  cases o with
  | none =>
    cases o' with
    | none => rfl
    | some s =>
      obtain ⟨doc, hdoc⟩ := exists_mem (ho' s rfl)
      exact absurd ((h doc).2 hdoc) (mem_empty doc)
  | some s =>
    cases o' with
    | none =>
      obtain ⟨doc, hdoc⟩ := exists_mem (ho s rfl)
      exact absurd ((h doc).1 hdoc) (mem_empty doc)
    | some t => exact congrArg some (ext h)

end DocSet

end Corpus
