import Corpus.Proofs.Store.Reading

/-! The records of a table as a list, with one of each identity. -/

namespace Corpus.Store

variable {s : Store} {name : String}

def records (s : Store) (name : String) : List Record :=
  ((s.tables.get? name).getD []).flatMap (·.byId.values)

theorem finds_values : Finds (·.byId.values) fun _ _ => true := by
  intro p hp
  have hid : p.byId.values.map (·.id) = p.byId.keys := by
    rw [Dict.values, Dict.keys, List.map_map]
    exact List.map_congr_left fun a ha => hp.named (Dict.get?_eq_some_iff.2 ha)
  refine ⟨.of_map (·.id) (hid ▸ p.byId.nodup_keys), fun r => ?_⟩
  rw [Dict.mem_values_iff, and_iff_left rfl]
  constructor
  · rintro ⟨id, hr⟩
    rwa [← hp.named hr] at hr
  · intro hr
    exact ⟨r.id, hr⟩

section

variable {partitions : List Partition} {f : Partition → List Record} {wanted : String → Record → Bool}

theorem Finds.nodup_flatMap (hf : Finds f wanted) (h : s.Placed partitions) :
    (partitions.flatMap f).Nodup := by
  rw [← gather_range]
  exact hf.nodup_gather h List.nodup_range

theorem Finds.mem_flatMap (hf : Finds f wanted) (h : s.Placed partitions) {r : Record} :
    r ∈ partitions.flatMap f ↔ find? partitions r.id = some r ∧ wanted r.id r := by
  rw [← gather_range]
  exact hf.mem_gather h fun id => List.mem_range.2 (h.inside id)

end

theorem Sound.nodup_records (h : s.Sound) (name : String) : (s.records name).Nodup := by
  rw [records]
  cases hp : s.tables.get? name with
  | none => exact .nil
  | some partitions => exact finds_values.nodup_flatMap (h.tables hp)

theorem Sound.mem_records (h : s.Sound) {r : Record} :
    r ∈ s.records name ↔ s.record? name r.id = some r := by
  rw [records, record?]
  cases hp : s.tables.get? name with
  | none => simp
  | some partitions =>
    exact (finds_values.mem_flatMap (h.tables hp)).trans (and_iff_left rfl)

theorem Sound.id_eq (h : s.Sound) {id : String} {r : Record} (hr : s.record? name id = some r) :
    r.id = id := by
  obtain ⟨partitions, hp, hr⟩ := Option.bind_eq_some_iff.1 hr
  obtain ⟨p, hmem, hget⟩ := (find?_eq_some_iff (h.tables hp)).1 hr
  exact ((h.tables hp).sound p hmem).named hget

theorem Sound.nodup_ids_records (h : s.Sound) (name : String) :
    ((s.records name).map (·.id)).Nodup := by
  refine (h.nodup_records name).map_on fun r hr r' hr' hid => ?_
  have hget := h.mem_records.1 hr
  rw [hid, h.mem_records.1 hr'] at hget
  exact (Option.some.inj hget).symm

theorem Sound.count_eq (h : s.Sound) (hn : s.tables.contains name) (lower upper : Int) :
    s.count name lower upper =
      .ok ((s.records name).countP fun r => inTimes lower upper r.timestamp) := by
  obtain ⟨partitions, hp⟩ := Option.isSome_iff_exists.1 hn
  have hplaced := h.tables hp
  have htable : s.table name = .ok partitions := by rw [Store.table, if_neg h.isOpen, hp]
  have hperm : (partitions.flatMap (·.inRange lower upper)).Perm
      ((s.records name).filter fun r => inTimes lower upper r.timestamp) := by
    refine (List.perm_ext_iff_of_nodup ((finds_inRange lower upper).nodup_flatMap hplaced)
      ((h.nodup_records name).filter _)).2 fun r => ?_
    rw [(finds_inRange lower upper).mem_flatMap hplaced, List.mem_filter, h.mem_records, record?, hp]
    rfl
  have hlength (p : Partition) (hmem : p ∈ partitions) :
      (p.moments lower upper).length = (p.inRange lower upper).length := by
    have hids := congrArg List.length ((hplaced.sound p hmem).map_id_inRange lower upper)
    simpa using hids.symm
  rw [count, htable, List.countP_eq_length_filter, ← hperm.length_eq, List.length_flatMap,
    ← List.map_congr_left hlength]
  rfl

end Corpus.Store
