import Corpus.Proofs.Store.Records
import Mathlib.Data.List.Nodup

/-! What is read from the partitions of a table, against a map of the records that it has. -/

namespace Corpus

theorem nodup_eraseDups {α : Type u} [BEq α] [LawfulBEq α] (l : List α) : l.eraseDups.Nodup := by
  induction hn : l.length using Nat.strongRecOn generalizing l with
  | ind n ih =>
    cases l with
    | nil => exact List.nodup_nil
    | cons a rest =>
      rw [List.eraseDups_cons, List.nodup_cons, List.mem_eraseDups]
      refine ⟨by simp, ih _ ?_ _ rfl⟩
      rw [← hn]
      exact Nat.lt_succ_of_le (List.length_filter_le _ _)

theorem flatten_map_filterMap {α : Type u} {β : Type v} {γ : Type w} {k : α → Option β}
    {f : β → List γ} {g : α → List γ} {l : List α} (h : ∀ a ∈ l, ((k a).map f).getD [] = g a) :
    ((l.filterMap k).map f).flatten = (l.map g).flatten := by
  induction l with
  | nil => rfl
  | cons a rest ih =>
    rw [List.forall_mem_cons] at h
    rw [List.map_cons, List.flatten_cons, ← h.1, ← ih h.2, List.filterMap_cons]
    cases k a with
    | none => rfl
    | some b => rfl

namespace Store

variable {s : Store} {partitions : List Partition} {f : Partition → List Record}

def gather (partitions : List Partition) (f : Partition → List Record) (places : List Nat) :
    List Record :=
  places.flatMap fun i => ((partitions[i]?).map f).getD []

theorem gather_range (partitions : List Partition) (f : Partition → List Record) :
    gather partitions f (List.range partitions.length) = partitions.flatMap f := by
  rw [gather, List.flatMap, List.flatMap]
  congr 1
  apply List.ext_getElem
  · simp
  · intro i h h'
    have hi : i < partitions.length := by simpa using h'
    simp [hi]

theorem gather_flatten (deal : List (List Nat)) :
    gather partitions f deal.flatten = (deal.map (gather partitions f)).flatten := by
  induction deal with
  | nil => rfl
  | cons places rest ih =>
    rw [List.flatten_cons, List.map_cons, List.flatten_cons, ← ih]
    exact List.flatMap_append

theorem gather_nil (places : List Nat) : gather partitions (fun _ => []) places = [] :=
  List.flatMap_eq_nil_iff.2 fun i _ => by cases partitions[i]? <;> rfl

theorem mem_gather {places : List Nat} {r : Record} :
    r ∈ gather partitions f places ↔ ∃ i ∈ places, ∃ p, partitions[i]? = some p ∧ r ∈ f p := by
  simp only [gather, List.mem_flatMap]
  refine exists_congr fun i => and_congr_right fun _ => ?_
  cases partitions[i]? with
  | none => simp
  | some p => simp

def Finds (f : Partition → List Record) (wanted : String → Record → Bool) : Prop :=
  ∀ p : Partition, p.Sound → (f p).Nodup ∧ ∀ r, r ∈ f p ↔ p.get? r.id = some r ∧ wanted r.id r

variable {wanted : String → Record → Bool} {places : List Nat}

theorem Finds.nodup_gather (hf : Finds f wanted) (h : s.Placed partitions) (hn : places.Nodup) :
    (gather partitions f places).Nodup := by
  refine List.nodup_flatMap.2 ⟨fun i _ => ?_, hn.imp fun {i j} hij r hi hj => hij ?_⟩
  · cases hp : partitions[i]? with
    | none => exact List.nodup_nil
    | some p => exact (hf p (h.sound p (List.mem_of_getElem? hp))).1
  · -- a record is in one partition only
    have hplace {k : Nat} (hk : r ∈ ((partitions[k]?).map f).getD []) : s.partitionOf r.id = k := by
      cases hp : partitions[k]? with
      | none => rw [hp] at hk; cases hk
      | some p =>
        rw [hp] at hk
        have hget := (((hf p (h.sound p (List.mem_of_getElem? hp))).2 r).1 hk).1
        exact (h.placed hp hget).2
    exact (hplace hi).symm.trans (hplace hj)

theorem Finds.mem_gather (hf : Finds f wanted) (h : s.Placed partitions)
    (hall : ∀ id, s.partitionOf id ∈ places) {r : Record} :
    r ∈ gather partitions f places ↔ find? partitions r.id = some r ∧ wanted r.id r := by
  rw [Store.mem_gather, h.find?_eq, Option.bind_eq_some_iff]
  constructor
  · intro ⟨i, _, p, hp, hr⟩
    obtain ⟨hget, hw⟩ := ((hf p (h.sound p (List.mem_of_getElem? hp))).2 r).1 hr
    exact ⟨⟨p, (h.placed hp hget).2 ▸ hp, hget⟩, hw⟩
  · intro ⟨⟨p, hp, hget⟩, hw⟩
    exact ⟨_, hall r.id, p, hp, ((hf p (h.sound p (List.mem_of_getElem? hp))).2 r).2 ⟨hget, hw⟩⟩

def Shows (partitions : List Partition) (d : Dict String Record) : Prop :=
  ∀ id, find? partitions id = d.get? id

theorem Shows.id_eq {d : Dict String Record} (hd : Shows partitions d) (h : s.Placed partitions)
    {id : String} {r : Record} (hr : d.get? id = some r) : r.id = id := by
  rw [← hd, find?_eq_some_iff h] at hr
  obtain ⟨p, hp, hget⟩ := hr
  exact (h.sound p hp).named hget

theorem Shows.map_id_values {d : Dict String Record} (hd : Shows partitions d)
    (h : s.Placed partitions) (wanted : String → Record → Bool) :
    (d.filter wanted).values.map (·.id) = (d.filter wanted).keys := by
  rw [Dict.values, Dict.keys, List.map_map]
  refine List.map_congr_left fun a ha => ?_
  exact hd.id_eq h (Dict.get?_eq_some_iff.2 (List.mem_of_mem_filter ha))

theorem Finds.gather_perm (hf : Finds f wanted) (h : s.Placed partitions) {d : Dict String Record}
    (hd : Shows partitions d) (hn : places.Nodup) (hall : ∀ id, s.partitionOf id ∈ places) :
    (gather partitions f places).Perm (d.filter wanted).values := by
  have hvalues : (d.filter wanted).values.Nodup := by
    refine .of_map (·.id) ?_
    rw [hd.map_id_values h]
    exact Dict.nodup_keys _
  refine (List.perm_ext_iff_of_nodup (hf.nodup_gather h hn) hvalues).2 fun r => ?_
  rw [hf.mem_gather h hall, hd, Dict.mem_values_iff]
  constructor
  · intro hr
    exact ⟨r.id, Dict.get?_filter_eq_some.2 hr⟩
  · intro ⟨id, hr⟩
    obtain ⟨hget, hw⟩ := Dict.get?_filter_eq_some.1 hr
    obtain rfl := hd.id_eq h hget
    exact ⟨hget, hw⟩

theorem finds_inRange (lower upper : Int) :
    Finds (·.inRange lower upper) fun _ r => inTimes lower upper r.timestamp := by
  intro p hp
  refine ⟨.of_map (·.id) ?_, fun _ => hp.mem_inRange⟩
  rw [hp.map_id_inRange]
  exact hp.nodup_ids_moments lower upper

theorem finds_ids (ids : List String) :
    Finds (fun p => ids.eraseDups.filterMap p.get?) fun id _ => ids.contains id := by
  intro p hp
  refine ⟨.filterMap (fun id id' r hr hr' => ?_) (nodup_eraseDups ids), fun r => ?_⟩
  · exact (hp.named hr).symm.trans (hp.named hr')
  · simp only [List.mem_filterMap, List.mem_eraseDups, List.contains_iff_mem]
    constructor
    · intro ⟨id, hid, hr⟩
      obtain rfl := hp.named hr
      exact ⟨hr, hid⟩
    · intro ⟨hr, hid⟩
      exact ⟨r.id, hid, hr⟩

theorem nodup_split (s : Store) (hint : Nat) : (s.split hint).flatten.Nodup := by
  rw [split, List.nodup_flatten]
  constructor
  · intro places hp
    obtain ⟨g, -, rfl⟩ := List.mem_map.1 hp
    exact List.nodup_range.filter _
  · refine List.pairwise_map.2 (List.pairwise_lt_range.imp fun {g g'} hlt i hi hi' => ?_)
    rw [List.mem_filter, decide_eq_true_eq] at hi hi'
    exact Nat.ne_of_lt hlt (hi.2.symm.trans hi'.2)

theorem mem_split {hint i : Nat} (h : i < s.partitions) : i ∈ (s.split hint).flatten := by
  have hg : i % max 1 (min hint s.partitions) < max 1 (min hint s.partitions) :=
    Nat.mod_lt _ (Nat.lt_of_lt_of_le Nat.zero_lt_one (Nat.le_max_left ..))
  rw [split, List.mem_flatten]
  refine ⟨_, List.mem_map.2 ⟨_, List.mem_range.2 hg, rfl⟩, List.mem_filter.2 ⟨List.mem_range.2 h, ?_⟩⟩
  exact decide_eq_true rfl

theorem Sound.partitionOf_lt (h : s.Sound) (id : String) : s.partitionOf id < s.partitions := by
  rw [partitionOf, Corpus.partitionOf, Nat.max_eq_left h.positive]
  exact Nat.mod_lt _ h.positive

theorem Finds.split_perm (hf : Finds f wanted) (hs : s.Sound) (h : s.Placed partitions)
    {d : Dict String Record} (hd : Shows partitions d) (hint : Nat) (columns : Option (List String)) :
    ((s.split hint).map fun places =>
      (gather partitions f places).map (·.project columns)).flatten.Perm
        ((d.filter wanted).values.map (·.project columns)) := by
  have hall := hf.gather_perm h hd (s.nodup_split hint) fun id => mem_split (hs.partitionOf_lt id)
  rw [gather_flatten] at hall
  have hmap := hall.map (·.project columns)
  rwa [List.map_flatten, List.map_map] at hmap

section

variable {name : String} {columns : Option (List String)}

theorem read_times (hp : s.table name = .ok partitions) (lower upper : Int) :
    s.read ⟨name, places, columns, .times lower upper 0 none⟩ =
      .ok ((gather partitions (·.inRange lower upper) places).map (·.project columns)) := by
  rw [read, hp]
  rfl

theorem read_ids (hp : s.table name = .ok partitions) (ids : List String) :
    s.read ⟨name, places, columns, .ids ids⟩ =
      .ok ((gather partitions (fun p => ids.filterMap p.get?) places).map (·.project columns)) := by
  rw [read, hp]
  rfl

theorem Placed.gather_owned (h : s.Placed partitions) (ids : List String) :
    gather partitions
        (fun p => (ids.filter fun id => places.contains (s.partitionOf id)).filterMap p.get?) places =
      gather partitions (fun p => ids.filterMap p.get?) places := by
  refine List.flatMap_congr fun i hi => ?_
  cases hp : partitions[i]? with
  | none => rfl
  | some p =>
    rw [Option.map_some, Option.map_some, Option.getD_some, Option.getD_some, List.filterMap_filter]
    refine List.filterMap_congr fun id _ => ?_
    cases hr : p.get? id with
    | none => exact ite_self none
    | some r => rw [(h.placed hp hr).2, if_pos (List.contains_iff_mem.2 hi)]

end

def candidates (s : Store) (g : RecordGroup) : List Record :=
  gather ((s.tables.get? g.table).getD []) (load g.selection) g.partitions

/-- A record of the group's table, in one of the group's partitions, that the group's selection takes. -/
structure Selects (s : Store) (g : RecordGroup) (r : Record) : Prop where
  stored : s.record? g.table r.id = some r
  placed : s.partitionOf r.id ∈ g.partitions
  taken : match g.selection with
    | .times lower upper offset count => inTimes lower upper r.timestamp ∧
      ∃ i, ((s.candidates g).mergeSort notAfter)[i]? = some r ∧ offset ≤ i ∧
        ∀ n ∈ count, i < offset + n
    | .ids ids => r.id ∈ ids

def inWindow : Selection → List Record → List Record
  | .times _ _ offset count, records =>
    if 0 < offset || count.isSome then
      (count.map ((records.mergeSort notAfter).drop offset).take).getD
        ((records.mergeSort notAfter).drop offset)
    else records
  | .ids _, records => records

theorem Sound.read_eq (hs : s.Sound) {g : RecordGroup} (hp : s.table g.table = .ok partitions) :
    s.read g = .ok ((inWindow g.selection (s.candidates g)).map (·.project g.columns)) := by
  obtain ⟨name, places, columns, selection⟩ := g
  rw [read, hp, candidates, hs.get?_of_table hp]
  cases selection <;> rfl

theorem exists_place {lower upper : Int} {offset : Nat} {count : Option Nat} {records : List Record}
    {r : Record} (h : r ∈ inWindow (.times lower upper offset count) records) :
    r ∈ records ∧ ∃ i, (records.mergeSort notAfter)[i]? = some r ∧ offset ≤ i ∧
      ∀ n ∈ count, i < offset + n := by
  rw [inWindow] at h
  split at h
  next =>
    obtain ⟨j, hj⟩ := List.mem_iff_getElem?.1 h
    have hi : (records.mergeSort notAfter)[offset + j]? = some r ∧ ∀ n ∈ count, j < n := by
      cases count with
      | none =>
        rw [Option.map_none, Option.getD_none, List.getElem?_drop] at hj
        exact ⟨hj, nofun⟩
      | some n =>
        rw [Option.map_some, Option.getD_some, List.getElem?_take, List.getElem?_drop] at hj
        split at hj
        next hlt => exact ⟨hj, fun m hm => Option.some.inj hm ▸ hlt⟩
        next => cases hj
    exact ⟨List.mem_mergeSort.1 (List.mem_of_getElem? hi.1), _, hi.1, Nat.le_add_right .., fun n hn =>
      Nat.add_lt_add_left (hi.2 n hn) offset⟩
  next hall =>
    obtain ⟨rfl, rfl⟩ : offset = 0 ∧ count = none := by simpa using hall
    have hsorted : r ∈ records.mergeSort notAfter := List.mem_mergeSort.2 h
    obtain ⟨i, hi⟩ := List.mem_iff_getElem?.1 hsorted
    exact ⟨h, i, hi, Nat.zero_le i, nofun⟩

theorem Sound.exists_of_mem_candidates (hs : s.Sound) {g : RecordGroup} {r : Record}
    (hr : r ∈ s.candidates g) :
    s.record? g.table r.id = some r ∧ s.partitionOf r.id ∈ g.partitions ∧
      ∃ p : Partition, p.Sound ∧ r ∈ load g.selection p := by
  obtain ⟨i, hi, p, hp, hload⟩ := mem_gather.1 hr
  cases ht : s.tables.get? g.table with
  | none => rw [ht] at hp; cases hp
  | some partitions =>
    rw [ht, Option.getD_some] at hp
    have hplaced := hs.tables ht
    have hmem := List.mem_of_getElem? hp
    have hget : p.get? r.id = some r := by
      cases hsel : g.selection with
      | times lower upper offset count =>
        rw [hsel] at hload
        exact ((hplaced.sound p hmem).mem_inRange.1 hload).1
      | ids ids =>
        rw [hsel] at hload
        obtain ⟨id, -, hr⟩ := List.mem_filterMap.1 hload
        obtain rfl := (hplaced.sound p hmem).named hr
        exact hr
    refine ⟨?_, (hplaced.placed hp hget).2 ▸ hi, p, hplaced.sound p hmem, hload⟩
    rw [record?, ht]
    exact (find?_eq_some_iff hplaced).2 ⟨p, hmem, hget⟩

theorem Sound.exists_selects (hs : s.Sound) {g : RecordGroup} {records : List Record}
    (h : s.read g = .ok records) :
    ∀ r ∈ records, ∃ stored, s.Selects g stored ∧ r = stored.project g.columns := by
  obtain ⟨partitions, hp, -⟩ := bind_eq_ok.1 h
  rw [hs.read_eq hp] at h
  cases h
  intro r hr
  obtain ⟨stored, hstored, rfl⟩ := List.mem_map.1 hr
  refine ⟨stored, ?_, rfl⟩
  cases hsel : g.selection with
  | times lower upper offset count =>
    rw [hsel] at hstored
    obtain ⟨hmem, hplace⟩ := exists_place hstored
    obtain ⟨hrecord, hplaced, p, hsound, hload⟩ := hs.exists_of_mem_candidates hmem
    refine ⟨hrecord, hplaced, ?_⟩
    rw [hsel] at hload ⊢
    exact ⟨(hsound.mem_inRange.1 hload).2, hplace⟩
  | ids ids =>
    rw [hsel] at hstored
    obtain ⟨hrecord, hplaced, p, hsound, hload⟩ := hs.exists_of_mem_candidates hstored
    refine ⟨hrecord, hplaced, ?_⟩
    rw [hsel] at hload ⊢
    obtain ⟨id, hid, hr⟩ := List.mem_filterMap.1 hload
    obtain rfl := hsound.named hr
    exact hid

end Store

end Corpus
