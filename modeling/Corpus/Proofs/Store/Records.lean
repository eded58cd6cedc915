import Corpus.Proofs.Data.Dict
import Corpus.Proofs.Data.Failure
import Corpus.Proofs.Store.Partition
import Corpus.Store.Basic

/-! The store of records by the identities of records: which record a table has for each of them. -/

namespace Corpus.Store

variable {s : Store} {partitions : List Partition}

def find? (partitions : List Partition) (id : String) : Option Record :=
  partitions.findSome? (·.get? id)

def record? (s : Store) (name id : String) : Option Record :=
  (s.tables.get? name).bind (find? · id)

def latest (id : String) (last : Option Record) (records : List Record) : Option Record :=
  records.foldl (fun last r => if r.id = id then some r else last) last

structure Placed (s : Store) (partitions : List Partition) : Prop where
  sound : ∀ p ∈ partitions, p.Sound
  inside : ∀ id, s.partitionOf id < partitions.length
  placed : ∀ {i p}, partitions[i]? = some p → ∀ {id r}, p.get? id = some r →
    r.id = id ∧ s.partitionOf id = i

theorem find?_eq_some_iff (h : s.Placed partitions) {id : String} {r : Record} :
    find? partitions id = some r ↔ ∃ p ∈ partitions, p.get? id = some r := by
  constructor
  · intro hr
    exact List.exists_of_findSome?_eq_some hr
  · intro ⟨p, hp, hr⟩
    obtain ⟨i, hi⟩ := List.mem_iff_getElem?.1 hp
    have hsome : (find? partitions id).isSome := List.findSome?_isSome_iff.2 ⟨p, hp, by rw [hr]; rfl⟩
    obtain ⟨r', hr'⟩ := Option.isSome_iff_exists.1 hsome
    obtain ⟨p', hp', hget⟩ := List.exists_of_findSome?_eq_some hr'
    obtain ⟨j, hj⟩ := List.mem_iff_getElem?.1 hp'
    rw [← (h.placed hi hr).2, (h.placed hj hget).2, hj] at hi
    cases hi
    rw [hr', ← hget, hr]

theorem Placed.find?_eq (h : s.Placed partitions) (id : String) :
    find? partitions id = partitions[s.partitionOf id]?.bind (·.get? id) := by
  refine Option.ext fun r => ?_
  rw [find?_eq_some_iff h, Option.bind_eq_some_iff]
  constructor
  · intro ⟨p, hp, hr⟩
    obtain ⟨i, hi⟩ := List.mem_iff_getElem?.1 hp
    exact ⟨p, (h.placed hi hr).2 ▸ hi, hr⟩
  · intro ⟨p, hp, hr⟩
    exact ⟨p, List.mem_of_getElem? hp, hr⟩

theorem Placed.modify (h : s.Placed partitions) (i : Nat) {f : Partition → Partition}
    (hs : ∀ {p : Partition}, p.Sound → (f p).Sound)
    (hf : ∀ p, partitions[i]? = some p → ∀ {id r}, (f p).get? id = some r →
      r.id = id ∧ s.partitionOf id = i) : s.Placed (partitions.modify i f) where
  sound p hp := by
    obtain ⟨j, hj⟩ := List.mem_iff_getElem?.1 hp
    rw [List.getElem?_modify] at hj
    obtain ⟨old, ho, rfl⟩ := Option.map_eq_some_iff.1 hj
    have hold := h.sound old (List.mem_of_getElem? ho)
    split
    next => exact hs hold
    next => exact hold
  inside id := (List.length_modify ..).symm ▸ h.inside id
  placed {j p} hj id r hr := by
    rw [List.getElem?_modify] at hj
    obtain ⟨old, ho, rfl⟩ := Option.map_eq_some_iff.1 hj
    split at hr
    next hi =>
      obtain ⟨hid, hp⟩ := hf old (hi ▸ ho) hr
      exact ⟨hid, hp.trans hi⟩
    next => exact h.placed ho hr

theorem Placed.find?_modify (h : s.Placed partitions) {i : Nat} {f : Partition → Partition}
    (hm : s.Placed (partitions.modify i f)) (id : String) :
    find? (partitions.modify i f) id =
      if i = s.partitionOf id then partitions[i]?.bind fun p => (f p).get? id
      else find? partitions id := by
  rw [hm.find?_eq, h.find?_eq, List.getElem?_modify]
  split
  next hi =>
    rw [← hi]
    cases partitions[i]? <;> rfl
  next => cases partitions[s.partitionOf id]? <;> rfl

theorem Placed.putRecord (h : s.Placed partitions) (r : Record) :
    s.Placed (s.putRecord partitions r) := by
  refine h.modify _ (·.insert r) fun p hp {id r'} hr => ?_
  rw [Partition.get?_insert] at hr
  split at hr
  next hid =>
    cases hr
    exact ⟨hid.symm, by rw [hid]⟩
  next => exact h.placed hp hr

theorem Placed.find?_putRecord (h : s.Placed partitions) (r : Record) (id : String) :
    find? (s.putRecord partitions r) id =
      if r.id = id then some r else find? partitions id := by
  have hlt := h.inside r.id
  refine (h.find?_modify (h.putRecord r) id).trans ?_
  rw [List.getElem?_eq_getElem hlt, Option.bind_some, Partition.get?_insert]
  by_cases hid : r.id = id
  · rw [if_pos hid, if_pos (congrArg s.partitionOf hid), if_pos hid.symm]
  · rw [if_neg hid, if_neg (Ne.symm hid)]
    split
    next hp => rw [h.find?_eq, ← hp, List.getElem?_eq_getElem hlt, Option.bind_some]
    next => rfl

theorem Placed.foldl_putRecord (h : s.Placed partitions) (records : List Record) :
    s.Placed (records.foldl s.putRecord partitions) ∧ ∀ id,
      find? (records.foldl s.putRecord partitions) id = latest id (find? partitions id) records := by
  induction records generalizing partitions with
  | nil => exact ⟨h, fun _ => rfl⟩
  | cons r rest ih =>
    obtain ⟨hp, hf⟩ := ih (h.putRecord r)
    refine ⟨hp, fun id => ?_⟩
    rw [List.foldl_cons, hf, h.find?_putRecord]
    rfl

theorem Placed.eraseId (h : s.Placed partitions) (id : String) :
    s.Placed (s.eraseId partitions id) := by
  refine h.modify _ (·.erase id) fun p hp {id' r} hr => ?_
  rw [Partition.get?_erase] at hr
  split at hr
  next => cases hr
  next => exact h.placed hp hr

theorem Placed.find?_eraseId (h : s.Placed partitions) (id id' : String) :
    find? (s.eraseId partitions id) id' = if id' = id then none else find? partitions id' := by
  have hlt := h.inside id
  refine (h.find?_modify (h.eraseId id) id').trans ?_
  rw [List.getElem?_eq_getElem hlt, Option.bind_some, Partition.get?_erase]
  by_cases hid : id' = id
  · rw [if_pos hid, if_pos (by rw [hid]), if_pos hid]
  · rw [if_neg hid, if_neg hid]
    split
    next hp => rw [h.find?_eq, ← hp, List.getElem?_eq_getElem hlt, Option.bind_some]
    next => rfl

theorem Placed.holds_eq (h : s.Placed partitions) (id : String) :
    s.holds partitions id = (find? partitions id).isSome := by
  rw [holds, h.find?_eq, List.getElem?_eq_getElem (h.inside id)]
  rfl

theorem Placed.eraseIds (h : s.Placed partitions) (ids : List String) :
    s.Placed (s.eraseIds partitions ids).2 ∧ ∀ id, find? (s.eraseIds partitions ids).2 id =
      if id ∈ (s.eraseIds partitions ids).1 then none else find? partitions id := by
  induction ids generalizing partitions with
  | nil => exact ⟨h, fun _ => rfl⟩
  | cons id rest ih =>
    obtain ⟨hp, hf⟩ := ih (h.eraseId id)
    refine ⟨hp, fun id' => ?_⟩
    rw [Store.eraseIds, hf, h.find?_eraseId, h.holds_eq]
    by_cases hid : id' = id
    · subst hid
      cases find? partitions id' <;> simp
    · cases find? partitions id <;> simp [hid]

theorem mem_deleted_iff (h : s.Placed partitions) {lower upper : Int} {id : String} :
    id ∈ (partitions.flatMap (·.moments lower upper)).map (·.id) ↔
      ∃ r, find? partitions id = some r ∧ inTimes lower upper r.timestamp := by
  simp only [List.mem_map, List.mem_flatMap, find?_eq_some_iff h]
  constructor
  · intro ⟨m, ⟨p, hp, hm⟩, hid⟩
    obtain ⟨r, hr, rfl⟩ := (h.sound p hp).exists_of_mem_moments hm
    exact ⟨r, ⟨p, hp, hid ▸ hr⟩, (Partition.mem_moments.1 hm).2⟩
  · intro ⟨r, ⟨p, hp, hr⟩, ht⟩
    have hm := Partition.mem_moments.2 ⟨((h.sound p hp).agrees ⟨r.timestamp, id⟩).2 ⟨r, hr, rfl⟩, ht⟩
    exact ⟨⟨r.timestamp, id⟩, ⟨p, hp, hm⟩, rfl⟩

def keepOthers (lower upper : Int) (partitions : List Partition) : List Partition :=
  partitions.map fun p => (p.moments lower upper).foldl (fun p m => p.erase m.id) p

theorem Placed.keepOthers (h : s.Placed partitions) (lower upper : Int) :
    s.Placed (keepOthers lower upper partitions) where
  sound q hq := by
    obtain ⟨p, hp, rfl⟩ := List.mem_map.1 hq
    exact (h.sound p hp).foldl_erase _
  inside id := by
    rw [Store.keepOthers, List.length_map]
    exact h.inside id
  placed hj _ _ hr := by
    rw [Store.keepOthers, List.getElem?_map] at hj
    obtain ⟨p, hp, rfl⟩ := Option.map_eq_some_iff.1 hj
    rw [Partition.get?_foldl_erase] at hr
    split at hr
    next => cases hr
    next => exact h.placed hp hr

theorem Placed.find?_keepOthers (h : s.Placed partitions) (lower upper : Int) (id : String) :
    find? (Store.keepOthers lower upper partitions) id =
      if id ∈ (partitions.flatMap (·.moments lower upper)).map (·.id) then none
      else find? partitions id := by
  have hlt := h.inside id
  have hp := List.getElem_mem hlt
  rw [(h.keepOthers lower upper).find?_eq, Store.keepOthers, List.getElem?_map,
    List.getElem?_eq_getElem hlt, Option.map_some, Option.bind_some, Partition.get?_foldl_erase]
  split
  next hin =>
    obtain ⟨m, hm, hid⟩ := List.mem_map.1 hin
    rw [if_pos (List.mem_map.2 ⟨m, List.mem_flatMap.2 ⟨_, hp, hm⟩, hid⟩)]
  next hout =>
    rw [h.find?_eq, List.getElem?_eq_getElem hlt, Option.bind_some]
    split
    next hd =>
      obtain ⟨r, hr, ht⟩ := (mem_deleted_iff h).1 hd
      rw [h.find?_eq, List.getElem?_eq_getElem hlt, Option.bind_some] at hr
      have hm := Partition.mem_moments.2
        ⟨((h.sound _ hp).agrees ⟨r.timestamp, id⟩).2 ⟨r, hr, rfl⟩, ht⟩
      exact absurd (List.mem_map.2 ⟨_, hm, rfl⟩) hout
    next => rfl

structure Sound (s : Store) : Prop where
  positive : 0 < s.partitions
  closed : s.closed = false
  tables : ∀ {name partitions}, s.tables.get? name = some partitions → s.Placed partitions

theorem Sound.new (partitions : Nat) (windows : Bool) : (Store.new partitions windows).Sound where
  positive := Nat.lt_of_lt_of_le Nat.zero_lt_one (Nat.le_max_right ..)
  closed := rfl
  tables h := by cases h

theorem Sound.isOpen (h : s.Sound) : ¬s.closed = true := Bool.eq_false_iff.1 h.closed

theorem Sound.get?_of_table (h : s.Sound) {name : String} (hp : s.table name = .ok partitions) :
    s.tables.get? name = some partitions := by
  rw [Store.table, if_neg h.isOpen] at hp
  split at hp
  next hget => cases hp; exact hget
  next => cases hp

theorem Sound.insert (h : s.Sound) (name : String) (hp : s.Placed partitions) :
    Sound { s with tables := s.tables.insert name partitions } where
  positive := h.positive
  closed := h.closed
  tables ht := by
    rw [Dict.get?_insert] at ht
    split at ht
    next => cases ht; exact ⟨hp.sound, hp.inside, hp.placed⟩
    next => exact ⟨(h.tables ht).sound, (h.tables ht).inside, (h.tables ht).placed⟩

theorem record?_insert (s : Store) (name : String) (partitions : List Partition) (name' id : String) :
    record? { s with tables := s.tables.insert name partitions } name' id =
      if name' = name then find? partitions id else s.record? name' id := by
  rw [record?, record?, Dict.get?_insert]
  split <;> rfl

theorem contains_insert (s : Store) (name : String) (partitions : List Partition) (name' : String) :
    (s.tables.insert name partitions).contains name' =
      (decide (name' = name) || s.tables.contains name') := by
  rw [Dict.contains, Dict.contains, Dict.get?_insert]
  split
  next h => simp [h]
  next h => simp [h]

variable {t : Store}

theorem Sound.placed_empty (h : s.Sound) : s.Placed (List.replicate s.partitions .empty) where
  sound p hp := List.eq_of_mem_replicate hp ▸ .empty
  inside id := by
    rw [List.length_replicate]
    exact Nat.lt_of_lt_of_le (Nat.mod_lt _ (Nat.lt_of_lt_of_le h.positive (Nat.le_max_left ..)))
      (Nat.le_of_eq (Nat.max_eq_left h.positive))
  placed hi _ _ hr := by
    rw [List.eq_of_mem_replicate (List.mem_of_getElem? hi)] at hr
    cases hr

theorem find?_empty (n : Nat) (id : String) :
    find? (List.replicate n (.empty : Partition)) id = none := by
  refine List.findSome?_eq_none_iff.2 fun p hp => ?_
  rw [List.eq_of_mem_replicate hp]
  rfl

theorem Sound.create (h : s.Sound) {name : String} (ht : s.create name = .ok t) :
    t.Sound ∧ (∀ name' id, t.record? name' id = s.record? name' id) ∧
      ∀ name', t.tables.contains name' = (decide (name' = name) || s.tables.contains name') := by
  rw [Store.create, if_neg h.isOpen] at ht
  cases hc : s.tables.contains name with
  | true =>
    rw [if_pos hc] at ht
    cases ht
    refine ⟨h, fun _ _ => rfl, fun name' => ?_⟩
    by_cases hn : name' = name
    · simp [hn, hc]
    · simp [hn]
  | false =>
    rw [if_neg (Bool.eq_false_iff.1 hc)] at ht
    cases ht
    refine ⟨h.insert name h.placed_empty, fun name' id => ?_, s.contains_insert name _⟩
    rw [record?_insert]
    split
    next hn =>
      have hnone : s.tables.get? name' = none := by simpa [Dict.contains, hn] using hc
      rw [find?_empty, record?, hnone]
      rfl
    next => rfl

theorem Sound.drop (h : s.Sound) {name : String} (ht : s.drop name = .ok t) :
    t.Sound ∧ (∀ name' id, name' ≠ name → t.record? name' id = s.record? name' id) ∧
      ∀ name', t.tables.contains name' = (decide (name' ≠ name) && s.tables.contains name') := by
  rw [Store.drop, if_neg h.isOpen] at ht
  cases ht
  refine ⟨⟨h.positive, h.closed, fun hp => ?_⟩, fun name' id hn => ?_, fun name' => ?_⟩
  · rw [Dict.get?_erase] at hp
    split at hp
    next => cases hp
    next => exact ⟨(h.tables hp).sound, (h.tables hp).inside, (h.tables hp).placed⟩
  · rw [record?, record?, Dict.get?_erase, if_neg hn]
  · rw [Dict.contains, Dict.contains, Dict.get?_erase]
    split
    next hn => simp [hn]
    next hn => simp [hn]

theorem Sound.change (h : s.Sound) {name : String} {old : List Partition}
    (ho : s.tables.get? name = some old) (hp : s.Placed partitions)
    {f : String → Option Record → Option Record}
    (hf : ∀ id, find? partitions id = f id (find? old id)) :
    Sound { s with tables := s.tables.insert name partitions } ∧
      (∀ name' id, record? { s with tables := s.tables.insert name partitions } name' id =
        if name' = name then f id (s.record? name' id) else s.record? name' id) ∧
      ∀ name', (s.tables.insert name partitions).contains name' = s.tables.contains name' := by
  refine ⟨h.insert name hp, fun name' id => ?_, fun name' => ?_⟩
  · rw [record?_insert]
    split
    next hn => rw [hf, record?, hn, ho, Option.bind_some]
    next => rfl
  · rw [contains_insert]
    by_cases hn : name' = name
    · simp [hn, Dict.contains, ho]
    · simp [hn]

theorem Sound.put (h : s.Sound) {name : String} {records : List Record}
    (ht : s.put name records = .ok t) :
    t.Sound ∧
      (∀ name' id, t.record? name' id =
        if name' = name then latest id (s.record? name' id) records else s.record? name' id) ∧
      ∀ name', t.tables.contains name' = s.tables.contains name' := by
  obtain ⟨old, ho, ht⟩ := bind_eq_ok.1 ht
  cases ht
  have hget := h.get?_of_table ho
  obtain ⟨hp, hf⟩ := (h.tables hget).foldl_putRecord records
  exact h.change hget hp (f := fun id last => latest id last records) hf

theorem Sound.delete (h : s.Sound) {name : String} {deleted : List String}
    (ht : (∃ ids, s.deleteIds name ids = .ok (deleted, t)) ∨
      ∃ lower upper, s.deleteTimes name lower upper = .ok (deleted, t)) :
    t.Sound ∧
      (∀ name' id, t.record? name' id =
        if name' = name then if id ∈ deleted then none else s.record? name' id
        else s.record? name' id) ∧
      ∀ name', t.tables.contains name' = s.tables.contains name' := by
  cases ht with
  | inl ht =>
    obtain ⟨ids, ht⟩ := ht
    obtain ⟨old, ho, ht⟩ := bind_eq_ok.1 ht
    cases ht
    have hget := h.get?_of_table ho
    obtain ⟨hp, hf⟩ := (h.tables hget).eraseIds ids
    exact h.change hget hp hf
  | inr ht =>
    obtain ⟨lower, upper, ht⟩ := ht
    obtain ⟨old, ho, ht⟩ := bind_eq_ok.1 ht
    cases ht
    have hget := h.get?_of_table ho
    have hp := h.tables hget
    exact h.change hget (hp.keepOthers lower upper) (hp.find?_keepOthers lower upper)

end Corpus.Store
