import Corpus.Proofs.Store.Reading

/-! The store as a finite map: for each table, its records by their identities. -/

namespace Corpus.Store

inductive Command
  | create (table : String)
  | drop (table : String)
  | put (table : String) (records : List Record)
  | deleteIds (table : String) (ids : List String)
  | deleteTimes (table : String) (lower upper : Int)

def step (s : Store) : Command → Store
  | .create table => (s.create table).toOption.getD s
  | .drop table => (s.drop table).toOption.getD s
  | .put table records => (s.put table records).toOption.getD s
  | .deleteIds table ids => ((s.deleteIds table ids).toOption.map (·.2)).getD s
  | .deleteTimes table lower upper => ((s.deleteTimes table lower upper).toOption.map (·.2)).getD s

def after (s : Store) (commands : List Command) : Store := commands.foldl step s

def among (ids : List String) (d : Dict String Record) : Dict String Record :=
  d.filter fun id _ => ids.contains id

def within (lower upper : Int) (d : Dict String Record) : Dict String Record :=
  d.filter fun _ r => inTimes lower upper r.timestamp

abbrev Contents := Dict String (Dict String Record)

namespace Contents

def change (c : Contents) (table : String) (f : Dict String Record → Dict String Record) : Contents :=
  c.alter table (·.map f)

def step (c : Contents) : Command → Contents
  | .create table => if c.contains table then c else c.insert table .empty
  | .drop table => c.erase table
  | .put table records => c.change table fun d => records.foldl (fun d r => d.insert r.id r) d
  | .deleteIds table ids => c.change table (·.filter fun id _ => !ids.contains id)
  | .deleteTimes table lower upper =>
    c.change table (·.filter fun _ r => !inTimes lower upper r.timestamp)

end Contents

def contents (commands : List Command) : Contents := commands.foldl Contents.step .empty

structure Holds (s : Store) (c : Contents) : Prop where
  sound : s.Sound
  tables : ∀ name, s.tables.contains name = c.contains name
  records : ∀ name id, s.record? name id = (c.get? name).bind (·.get? id)

variable {s t : Store} {c : Contents} {name : String}

theorem Holds.new (partitions : Nat) (windows : Bool) : (Store.new partitions windows).Holds .empty where
  sound := .new partitions windows
  tables _ := rfl
  records _ _ := rfl

theorem Holds.table_of_get?_eq_none (h : s.Holds c) (hn : c.get? name = none) :
    s.table name = .error (.noTable name) := by
  have hnone : s.tables.get? name = none := by
    simpa [Dict.contains, hn] using h.tables name
  rw [Store.table, if_neg h.sound.isOpen, hnone]

theorem Holds.exists_table (h : s.Holds c) {d : Dict String Record} (hd : c.get? name = some d) :
    ∃ partitions, s.table name = .ok partitions ∧ s.Placed partitions ∧ Shows partitions d := by
  have hsome : (s.tables.get? name).isSome := by
    have htables := h.tables name
    rw [Dict.contains, Dict.contains, hd] at htables
    exact htables
  obtain ⟨partitions, hp⟩ := Option.isSome_iff_exists.1 hsome
  refine ⟨partitions, ?_, h.sound.tables hp, fun id => ?_⟩
  · rw [Store.table, if_neg h.sound.isOpen, hp]
  · have hrecord := h.records name id
    rwa [record?, hp, hd, Option.bind_some, Option.bind_some] at hrecord

theorem Contents.contains_change (c : Contents) (table name : String)
    (f : Dict String Record → Dict String Record) :
    (c.change table f).contains name = c.contains name := by
  rw [Contents.change, Dict.contains, Dict.contains, Dict.get?_alter]
  split
  next hn => rw [hn, Option.isSome_map]
  next => rfl

theorem Holds.change (h : s.Holds c) (ht : t.Sound)
    (htables : ∀ name, t.tables.contains name = s.tables.contains name) (table : String)
    {f : Dict String Record → Dict String Record}
    (hrecords : ∀ name id, t.record? name id =
      if name = table then ((c.get? name).map f).bind (·.get? id) else s.record? name id) :
    t.Holds (c.change table f) where
  sound := ht
  tables name := by rw [htables, h.tables, Contents.contains_change]
  records name id := by
    rw [hrecords, Contents.change, Dict.get?_alter]
    split
    next hn => rw [hn]
    next => exact h.records name id

theorem Holds.change_of_none (h : s.Holds c) (hn : c.get? name = none)
    (f : Dict String Record → Dict String Record) : s.Holds (c.change name f) := by
  refine h.change h.sound (fun _ => rfl) name fun name' id => ?_
  split
  next he => rw [h.records, he, hn]; rfl
  next => rfl

theorem latest_eq (id : String) (d : Dict String Record) (records : List Record) :
    latest id (d.get? id) records = (records.foldl (fun d r => d.insert r.id r) d).get? id := by
  induction records generalizing d with
  | nil => rfl
  | cons r rest ih =>
    rw [List.foldl_cons, ← ih, Dict.get?_insert]
    simp only [latest, List.foldl_cons, eq_comm]

theorem Placed.deleted {partitions : List Partition} (h : s.Placed partitions) (ids : List String) :
    (s.eraseIds partitions ids).1.Nodup ∧
      ∀ id, id ∈ (s.eraseIds partitions ids).1 ↔ id ∈ ids ∧ (find? partitions id).isSome := by
  induction ids generalizing partitions with
  | nil => exact ⟨.nil, fun id => by simp [Store.eraseIds]⟩
  | cons id rest ih =>
    obtain ⟨hn, hm⟩ := ih (h.eraseId id)
    simp only [h.find?_eraseId] at hm
    rw [Store.eraseIds, h.holds_eq]
    cases hid : (find? partitions id).isSome with
    | true =>
      refine ⟨List.nodup_cons.2 ⟨by simp [hm], hn⟩, fun id' => ?_⟩
      by_cases he : id' = id
      · simp [he, hid]
      · simp [he, hm]
    | false =>
      refine ⟨hn, fun id' => ?_⟩
      by_cases he : id' = id
      · simp [he, hid, hm]
      · simp [he, hm]

section

variable {d : Dict String Record} {partitions : List Partition}

theorem Shows.deleted_ids (hd : Shows partitions d) (h : s.Placed partitions) (ids : List String) :
    (s.eraseIds partitions ids).1.Perm (among ids d).keys := by
  obtain ⟨hn, hm⟩ := h.deleted ids
  refine (List.perm_ext_iff_of_nodup hn (Dict.nodup_keys _)).2 fun id => ?_
  simp only [hm, hd id, Dict.mem_keys_iff, Option.isSome_iff_exists, among, Dict.get?_filter_eq_some,
    List.contains_iff_mem]
  exact ⟨fun ⟨hid, r, hr⟩ => ⟨r, hr, hid⟩, fun ⟨r, hr, hid⟩ => ⟨hid, r, hr⟩⟩

theorem Placed.flatMap_inRange (hd : Shows partitions d) (h : s.Placed partitions)
    (lower upper : Int) :
    (partitions.flatMap (·.inRange lower upper)).Perm (within lower upper d).values := by
  rw [← gather_range]
  exact (finds_inRange lower upper).gather_perm h hd List.nodup_range
    fun id => List.mem_range.2 (h.inside id)

theorem Shows.deleted_times (hd : Shows partitions d) (h : s.Placed partitions) (lower upper : Int) :
    ((partitions.flatMap (·.moments lower upper)).map (·.id)).Perm (within lower upper d).keys := by
  have hids : (partitions.flatMap (·.moments lower upper)).map (·.id) =
      (partitions.flatMap (·.inRange lower upper)).map (·.id) := by
    rw [List.map_flatMap, List.map_flatMap]
    exact List.flatMap_congr fun p hp => ((h.sound p hp).map_id_inRange lower upper).symm
  rw [hids, within, ← hd.map_id_values h]
  exact (h.flatMap_inRange hd lower upper).map _

end

theorem get?_of_deleted {d : Dict String Record} {gone : String → Record → Bool}
    {deleted : List String} (h : deleted.Perm (d.filter gone).keys) (id : String) :
    (d.filter fun id r => !gone id r).get? id = if id ∈ deleted then none else d.get? id := by
  have hmem : id ∈ deleted ↔ ∃ r, d.get? id = some r ∧ gone id r := by
    simp only [h.mem_iff, Dict.mem_keys_iff, Option.isSome_iff_exists, Dict.get?_filter_eq_some]
  refine Option.ext fun r => ?_
  rw [Dict.get?_filter_eq_some]
  split
  next hid =>
    obtain ⟨r', hr', hg⟩ := hmem.1 hid
    simp only [hr', Option.some.injEq, reduceCtorEq, iff_false]
    rintro ⟨rfl, hng⟩
    simp [hg] at hng
  next hid => exact and_iff_left_of_imp fun hr => by simpa using fun hg => hid (hmem.2 ⟨r, hr, hg⟩)

theorem Holds.delete (h : s.Holds c) {d : Dict String Record} (hd : c.get? name = some d)
    {deleted : List String} (ht : (∃ ids, s.deleteIds name ids = .ok (deleted, t)) ∨
      ∃ lower upper, s.deleteTimes name lower upper = .ok (deleted, t))
    {gone : String → Record → Bool} (hg : deleted.Perm (d.filter gone).keys) :
    t.Holds (c.change name (·.filter fun id r => !gone id r)) := by
  obtain ⟨hsound, hrecords, htables⟩ := h.sound.delete ht
  refine h.change hsound htables name fun name' id => ?_
  rw [hrecords]
  split
  next hn =>
    rw [h.records, hn, hd, Option.map_some, Option.bind_some, Option.bind_some, get?_of_deleted hg]
  next => rfl

theorem Holds.create (h : s.Holds c) (ht : s.create name = .ok t) :
    t.Holds (c.step (.create name)) := by
  obtain ⟨hsound, hrecords, htables⟩ := h.sound.create ht
  rw [Contents.step]
  split
  next hc =>
    refine ⟨hsound, fun name' => ?_, fun name' id => (hrecords name' id).trans (h.records name' id)⟩
    rw [htables, h.tables]
    by_cases hn : name' = name
    · simp [hn, hc]
    · simp [hn]
  next hc =>
    have hnone : c.get? name = none := by simpa [Dict.contains] using hc
    refine ⟨hsound, fun name' => ?_, fun name' id => ?_⟩
    · rw [htables, h.tables, Dict.contains, Dict.contains, Dict.get?_insert]
      by_cases hn : name' = name
      · simp [hn]
      · simp [hn]
    · rw [hrecords, h.records, Dict.get?_insert]
      split
      next hn => rw [hn, hnone]; rfl
      next => rfl

theorem Holds.drop (h : s.Holds c) (ht : s.drop name = .ok t) : t.Holds (c.erase name) := by
  obtain ⟨hsound, hrecords, htables⟩ := h.sound.drop ht
  refine ⟨hsound, fun name' => ?_, fun name' id => ?_⟩
  · rw [htables, h.tables, Dict.contains, Dict.contains, Dict.get?_erase]
    by_cases hn : name' = name
    · simp [hn]
    · simp [hn]
  · rw [Dict.get?_erase]
    split
    next hn =>
      have hnone : t.tables.get? name' = none := by simpa [hn, Dict.contains] using htables name'
      rw [record?, hnone]
      rfl
    next hn => rw [hrecords name' id hn, h.records]

theorem Holds.put (h : s.Holds c) {records : List Record} (ht : s.put name records = .ok t) :
    t.Holds (c.step (.put name records)) := by
  obtain ⟨hsound, hrecords, htables⟩ := h.sound.put ht
  refine h.change hsound htables name fun name' id => ?_
  rw [hrecords]
  split
  next hn =>
    subst hn
    cases hc : c.get? name' with
    | none =>
      obtain ⟨partitions, hp, -⟩ := bind_eq_ok.1 ht
      rw [h.table_of_get?_eq_none hc] at hp
      cases hp
    | some d => rw [h.records, hc, Option.map_some, Option.bind_some, Option.bind_some, latest_eq]
  next => rfl

section

variable {d : Dict String Record}

theorem Holds.exists_deleteIds (h : s.Holds c) (hd : c.get? name = some d) (ids : List String) :
    ∃ deleted, s.deleteIds name ids = .ok (deleted, s.step (.deleteIds name ids)) ∧
      deleted.Perm (among ids d).keys := by
  obtain ⟨partitions, hp, hplaced, hshows⟩ := h.exists_table hd
  refine ⟨_, ?_, hshows.deleted_ids hplaced ids⟩
  rw [step, deleteIds, hp]
  rfl

theorem Holds.exists_deleteTimes (h : s.Holds c) (hd : c.get? name = some d) (lower upper : Int) :
    ∃ deleted, s.deleteTimes name lower upper = .ok (deleted, s.step (.deleteTimes name lower upper)) ∧
      deleted.Perm (within lower upper d).keys := by
  obtain ⟨partitions, hp, hplaced, hshows⟩ := h.exists_table hd
  refine ⟨_, ?_, hshows.deleted_times hplaced lower upper⟩
  rw [step, deleteTimes, hp]
  rfl

end

theorem Holds.step (h : s.Holds c) (command : Command) : (s.step command).Holds (c.step command) := by
  cases command with
  | create table =>
    obtain ⟨t, ht⟩ : ∃ t, s.create table = .ok t := by
      rw [Store.create, if_neg h.sound.isOpen]
      split
      next => exact ⟨_, rfl⟩
      next => exact ⟨_, rfl⟩
    rw [Store.step, ht]
    exact h.create ht
  | drop table =>
    obtain ⟨t, ht⟩ : ∃ t, s.drop table = .ok t := by
      rw [Store.drop, if_neg h.sound.isOpen]
      exact ⟨_, rfl⟩
    rw [Store.step, ht]
    exact h.drop ht
  | put table records =>
    cases hc : c.get? table with
    | none =>
      rw [Store.step, Store.put, h.table_of_get?_eq_none hc]
      exact h.change_of_none hc _
    | some d =>
      obtain ⟨partitions, hp, -⟩ := h.exists_table hc
      have hput : s.put table records = .ok _ := bind_eq_ok.2 ⟨partitions, hp, rfl⟩
      rw [Store.step, hput]
      exact h.put hput
  | deleteIds table ids =>
    cases hc : c.get? table with
    | none =>
      rw [Store.step, Store.deleteIds, h.table_of_get?_eq_none hc]
      exact h.change_of_none hc _
    | some d =>
      obtain ⟨deleted, hdelete, hp⟩ := h.exists_deleteIds hc ids
      exact h.delete hc (.inl ⟨ids, hdelete⟩) hp
  | deleteTimes table lower upper =>
    cases hc : c.get? table with
    | none =>
      rw [Store.step, Store.deleteTimes, h.table_of_get?_eq_none hc]
      exact h.change_of_none hc _
    | some d =>
      obtain ⟨deleted, hdelete, hp⟩ := h.exists_deleteTimes hc lower upper
      exact h.delete hc (.inr ⟨lower, upper, hdelete⟩) hp

theorem Holds.after (h : s.Holds c) (commands : List Command) :
    (s.after commands).Holds (commands.foldl Contents.step c) := by
  induction commands generalizing s c with
  | nil => exact h
  | cons command rest ih => exact ih (h.step command)

section

variable {d : Dict String Record}

theorem Holds.exists_planTimes (h : s.Holds c) (hd : c.get? name = some d) (hint : Nat)
    (columns : Option (List String)) (lower upper : Int) {offset : Nat} {limit : Option Nat}
    (hw : s.windows = false ∨ offset = 0 ∧ limit = none) :
    ∃ groups reads, s.planTimes name hint columns lower upper offset limit = .ok groups ∧
      groups.mapM s.read = .ok reads ∧
      reads.flatten.Perm ((within lower upper d).values.map (·.project columns)) := by
  obtain ⟨partitions, hp, hplaced, hshows⟩ := h.exists_table hd
  have hwindow : (s.windows && (decide (0 < offset) || limit.isSome)) = false := by
    rcases hw with hw | ⟨rfl, rfl⟩
    · simp [hw]
    · simp
  refine ⟨(s.split hint).map fun places => ⟨name, places, columns, .times lower upper 0 none⟩,
    (s.split hint).map fun places =>
      (gather partitions (·.inRange lower upper) places).map (·.project columns), ?_, ?_, ?_⟩
  · rw [planTimes, hp]
    simp only [hwindow]
    rfl
  · rw [List.mapM_map]
    exact mapM_eq_ok_map fun places _ => read_times hp lower upper
  · exact (finds_inRange lower upper).split_perm h.sound hplaced hshows hint columns

theorem Holds.exists_planIds (h : s.Holds c) (hd : c.get? name = some d) (hint : Nat)
    (columns : Option (List String)) (ids : List String) :
    ∃ groups reads, s.planIds name hint columns ids = .ok groups ∧
      groups.mapM s.read = .ok reads ∧
      reads.flatten.Perm ((among ids d).values.map (·.project columns)) := by
  obtain ⟨partitions, hp, hplaced, hshows⟩ := h.exists_table hd
  refine ⟨_, _, bind_eq_ok.2 ⟨partitions, hp, rfl⟩, mapM_eq_ok_map (g := fun group =>
    (gather partitions (load group.selection) group.partitions).map (·.project group.columns))
    fun group hgroup => ?_, ?_⟩
  · obtain ⟨places, -, hg⟩ := List.mem_filterMap.1 hgroup
    split at hg
    next => cases hg
    next => cases hg; exact read_ids hp _
  · rw [flatten_map_filterMap fun places _ => ?_]
    · exact (finds_ids ids).split_perm h.sound hplaced hshows hint columns
    · rw [← hplaced.gather_owned]
      split
      next howned =>
        rw [howned, show gather partitions (fun p => [].filterMap p.get?) places = [] from
          gather_nil places]
        rfl
      next => rfl

theorem Holds.count_eq (h : s.Holds c) (hd : c.get? name = some d) (lower upper : Int) :
    s.count name lower upper = .ok (within lower upper d).size := by
  obtain ⟨partitions, hp, hplaced, hshows⟩ := h.exists_table hd
  have hlength := (hshows.deleted_times hplaced lower upper).length_eq
  rw [List.length_map, List.length_flatMap, Dict.length_keys] at hlength
  rw [count, hp, ← hlength]
  rfl

end

/-- A table answers as a map from identities to records does. -/
structure Answers (s : Store) (name : String) (d : Dict String Record) : Prop where
  count : ∀ lower upper, s.count name lower upper = .ok (within lower upper d).size
  planTimes : ∀ hint columns lower upper offset limit, s.windows = false ∨ offset = 0 ∧ limit = none →
    ∃ groups reads, s.planTimes name hint columns lower upper offset limit = .ok groups ∧
      groups.mapM s.read = .ok reads ∧
      reads.flatten.Perm ((within lower upper d).values.map (·.project columns))
  planIds : ∀ hint columns ids,
    ∃ groups reads, s.planIds name hint columns ids = .ok groups ∧ groups.mapM s.read = .ok reads ∧
      reads.flatten.Perm ((among ids d).values.map (·.project columns))
  deleteTimes : ∀ lower upper,
    ∃ deleted, s.deleteTimes name lower upper = .ok (deleted, s.step (.deleteTimes name lower upper)) ∧
      deleted.Perm (within lower upper d).keys
  deleteIds : ∀ ids,
    ∃ deleted, s.deleteIds name ids = .ok (deleted, s.step (.deleteIds name ids)) ∧
      deleted.Perm (among ids d).keys

structure Lacks (s : Store) (name : String) : Prop where
  put : ∀ records, s.put name records = .error (.noTable name)
  count : ∀ lower upper, s.count name lower upper = .error (.noTable name)
  planTimes : ∀ hint columns lower upper offset limit,
    s.planTimes name hint columns lower upper offset limit = .error (.noTable name)
  planIds : ∀ hint columns ids, s.planIds name hint columns ids = .error (.noTable name)
  deleteTimes : ∀ lower upper, s.deleteTimes name lower upper = .error (.noTable name)
  deleteIds : ∀ ids, s.deleteIds name ids = .error (.noTable name)

theorem Holds.lacks (h : s.Holds c) (hn : c.get? name = none) : s.Lacks name := by
  have ht := h.table_of_get?_eq_none hn
  constructor
  · intro records; rw [Store.put, ht]; rfl
  · intro lower upper; rw [Store.count, ht]; rfl
  · intro hint columns lower upper offset limit; rw [Store.planTimes, ht]; rfl
  · intro hint columns ids; rw [Store.planIds, ht]; rfl
  · intro lower upper; rw [Store.deleteTimes, ht]; rfl
  · intro ids; rw [Store.deleteIds, ht]; rfl

/-- After whatever commands the store answers as the map after the same ones. -/
theorem answers_after (partitions : Nat) (windows : Bool) (commands : List Command) (name : String) :
    match (contents commands).get? name with
    | some d => ((Store.new partitions windows).after commands).Answers name d
    | none => ((Store.new partitions windows).after commands).Lacks name := by
  have h := (Holds.new partitions windows).after commands
  split
  next d hd =>
    exact ⟨h.count_eq hd, fun hint columns lower upper _ _ => h.exists_planTimes hd hint columns lower upper,
      h.exists_planIds hd, h.exists_deleteTimes hd, h.exists_deleteIds hd⟩
  next hn => exact h.lacks hn

end Corpus.Store
