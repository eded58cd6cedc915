import Corpus.Proofs.Data.Dict
import Corpus.Store.Partition
import Mathlib.Data.List.Nodup

/-! The two indexes of a partition hold the same records. -/

namespace Corpus

def inTimes (lower upper time : Int) : Bool := lower ≤ time && (upper = timeMax || time < upper)

namespace Moment

theorem compare_start_eq_lt (m : Moment) (time : Int) :
    compare m ⟨time, ""⟩ = .lt ↔ m.time < time := by
  have hid : ¬m.id < "" := List.not_lt_nil m.id.toList
  rw [compare_eq, Ordering.then_eq_lt, Int.compare_eq_lt]
  exact ⟨fun h => h.resolve_right fun h => hid (compareOfLessAndEq_eq_lt.1 h.2), .inl⟩

theorem isLE_compare_start (time : Int) (m : Moment) :
    (compare ⟨time, ""⟩ m).isLE ↔ time ≤ m.time := by
  rw [Ordering.isLE_iff_ne_gt, Std.OrientedCmp.gt_iff_lt, compare_start_eq_lt, Int.not_lt]

end Moment

namespace Partition

structure Sound (p : Partition) : Prop where
  named : ∀ {id r}, p.get? id = some r → r.id = id
  agrees : ∀ m, p.byTime.contains m ↔ ∃ r, p.get? m.id = some r ∧ r.timestamp = m.time

variable {p : Partition}

theorem Sound.empty : Partition.empty.Sound where
  named h := by cases h
  agrees m := ⟨nofun, fun ⟨_, h, _⟩ => by cases h⟩

theorem Sound.moment (h : p.Sound) {id : String} {r : Record} (hr : p.get? id = some r) :
    r.moment = ⟨r.timestamp, id⟩ := by
  rw [Record.moment, h.named hr]

@[simp] theorem get?_erase (p : Partition) (id id' : String) :
    (p.erase id).get? id' = if id' = id then none else p.get? id' := by
  rw [erase]
  split
  next h =>
    split
    next hid => rw [hid, h]
    next => rfl
  next => exact Dict.get?_erase ..

@[simp] theorem get?_insert (p : Partition) (r : Record) (id : String) :
    (p.insert r).get? id = if id = r.id then some r else p.get? id := by
  have hbase : (p.insert r).get? id = if id = r.id then some r else (p.erase r.id).get? id :=
    Dict.get?_insert ..
  rw [hbase, get?_erase]
  split
  next => rfl
  next => rfl

theorem Sound.contains_erase (h : p.Sound) (id : String) (m : Moment) :
    (p.erase id).byTime.contains m ↔ m.id ≠ id ∧ p.byTime.contains m := by
  rw [erase]
  split
  next hnone =>
    refine (and_iff_right_of_imp fun hm hid => ?_).symm
    obtain ⟨r, hr, -⟩ := (h.agrees m).1 hm
    rw [hid, hnone] at hr
    cases hr
  next r hr =>
    rw [Dict.contains, Dict.get?_erase, h.moment hr]
    split
    next hm => simp [hm]
    next hm =>
      -- the identity has no other moment than that of its record
      refine (and_iff_right_of_imp fun hc hid => hm ?_).symm
      obtain ⟨r', hr', ht⟩ := (h.agrees m).1 hc
      rw [hid, hr] at hr'
      cases hr'
      rw [ht, ← hid]

theorem Sound.erase (h : p.Sound) (id : String) : (p.erase id).Sound where
  named {id' r} hr := by
    rw [get?_erase] at hr
    split at hr
    next => cases hr
    next => exact h.named hr
  agrees m := by
    rw [h.contains_erase, h.agrees, get?_erase]
    split
    next hid => simp [hid]
    next hid => simp [hid]

theorem Sound.insert (h : p.Sound) (r : Record) : (p.insert r).Sound where
  named {id' r'} hr := by
    rw [get?_insert] at hr
    split at hr
    next hid =>
      cases hr
      exact hid.symm
    next => exact h.named hr
  agrees m := by
    have hbase : (p.insert r).byTime.contains m ↔ m = r.moment ∨ (p.erase r.id).byTime.contains m := by
      rw [Partition.insert, Dict.contains, Dict.get?_insert]
      split
      next hm => simp [hm]
      next hm => simp [hm, Dict.contains]
    rw [hbase, h.contains_erase, h.agrees, get?_insert]
    obtain ⟨time, id⟩ := m
    by_cases hid : id = r.id
    · simp [hid, Record.moment, eq_comm]
    · simp [hid, Record.moment]

theorem mem_moments {lower upper : Int} {m : Moment} :
    m ∈ p.moments lower upper ↔ p.byTime.contains m ∧ inTimes lower upper m.time := by
  have hkeys : m ∈ p.byTime.keys ↔ p.byTime.contains m := Dict.mem_keys_iff
  rw [moments, inTimes]
  split
  next hu => rw [List.mem_filter, hkeys, Moment.isLE_compare_start]; simp [hu]
  next hu =>
    rw [List.mem_filter, hkeys, Bool.and_eq_true, Moment.isLE_compare_start, decide_eq_true_eq,
      Moment.compare_start_eq_lt]
    simp only [hu, decide_false, Bool.false_or, Bool.and_eq_true, decide_eq_true_eq]
    exact and_congr_right fun _ => by omega

theorem nodup_moments (p : Partition) (lower upper : Int) : (p.moments lower upper).Nodup := by
  rw [moments]
  split
  next => exact p.byTime.nodup_keys.filter _
  next => exact p.byTime.nodup_keys.filter _

theorem Sound.exists_of_mem_moments (h : p.Sound) {lower upper : Int} {m : Moment}
    (hm : m ∈ p.moments lower upper) : ∃ r, p.get? m.id = some r ∧ r.moment = m := by
  obtain ⟨r, hr, ht⟩ := (h.agrees m).1 (mem_moments.1 hm).1
  refine ⟨r, hr, ?_⟩
  rw [h.moment hr, ht]

theorem Sound.mem_inRange (h : p.Sound) {lower upper : Int} {r : Record} :
    r ∈ p.inRange lower upper ↔ p.get? r.id = some r ∧ inTimes lower upper r.timestamp := by
  rw [inRange, List.mem_filterMap]
  constructor
  · intro ⟨m, hm, hr⟩
    obtain ⟨r', hr', rfl⟩ := h.exists_of_mem_moments hm
    rw [hr'] at hr
    cases hr
    exact ⟨hr', (mem_moments.1 hm).2⟩
  · intro ⟨hr, ht⟩
    exact ⟨r.moment, mem_moments.2 ⟨(h.agrees _).2 ⟨r, hr, rfl⟩, ht⟩, hr⟩

theorem Sound.map_id_inRange (h : p.Sound) (lower upper : Int) :
    (p.inRange lower upper).map (·.id) = (p.moments lower upper).map (·.id) := by
  rw [inRange, List.map_filterMap, ← List.filterMap_eq_map]
  refine List.filterMap_congr fun m hm => ?_
  obtain ⟨r, hr, rfl⟩ := h.exists_of_mem_moments hm
  rw [hr]
  rfl

theorem Sound.nodup_ids_moments (h : p.Sound) (lower upper : Int) :
    ((p.moments lower upper).map (·.id)).Nodup := by
  refine List.Nodup.map_on (fun m hm n hn he => ?_) (p.nodup_moments lower upper)
  obtain ⟨r, hr, rfl⟩ := h.exists_of_mem_moments hm
  obtain ⟨r', hr', rfl⟩ := h.exists_of_mem_moments hn
  rw [he, hr'] at hr
  cases hr
  rfl

theorem Sound.foldl_erase (h : p.Sound) (ms : List Moment) :
    (ms.foldl (fun p m => p.erase m.id) p).Sound := by
  induction ms generalizing p with
  | nil => exact h
  | cons m rest ih => exact ih (h.erase m.id)

theorem get?_foldl_erase (p : Partition) (ms : List Moment) (id : String) :
    (ms.foldl (fun p m => p.erase m.id) p).get? id =
      if id ∈ ms.map (·.id) then none else p.get? id := by
  induction ms generalizing p with
  | nil => rfl
  | cons m rest ih =>
    rw [List.foldl_cons, ih, get?_erase, List.map_cons]
    by_cases hm : id = m.id
    · simp [hm]
    · simp [hm]

end Partition

end Corpus
