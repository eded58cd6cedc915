import Corpus.Proofs.Data.Dict
import Corpus.Proofs.Data.Failure
import Corpus.Store.Basic

/-! The store without values.  Which records there are, and which of them a deletion takes, does not depend
on what their columns hold. -/

namespace Corpus

def Record.bare (r : Record) : Record := { r with values := .empty }

def Partition.bare (p : Partition) : Partition := ⟨p.byId.mapValues Record.bare, p.byTime⟩

def Store.bare (s : Store) : Store := { s with tables := s.tables.mapValues (·.map Partition.bare) }

theorem map_modify {f : α → α} {g : α → β} {h : β → β} (hg : ∀ a, g (f a) = h (g a)) (l : List α)
    (i : Nat) : (l.modify i f).map g = (l.map g).modify i h := by
  refine List.ext_getElem? fun j => ?_
  rw [List.getElem?_map, List.getElem?_modify, List.getElem?_modify, List.getElem?_map]
  cases l[j]? with
  | none => rfl
  | some a => by_cases hj : i = j <;> simp [hj, hg]

namespace Partition

@[simp] theorem get?_bare (p : Partition) (id : String) : p.bare.get? id = (p.get? id).map Record.bare :=
  Dict.get?_mapValues ..

theorem bare_erase (p : Partition) (id : String) : (p.erase id).bare = p.bare.erase id := by
  rw [erase, erase, get?_bare]
  cases p.get? id with
  | none => rfl
  | some r =>
    have hid : (p.byId.erase id).mapValues Record.bare = (p.byId.mapValues Record.bare).erase id :=
      Dict.ext_get? fun id' => by
        rw [Dict.get?_mapValues, Dict.get?_erase, Dict.get?_erase, Dict.get?_mapValues]
        split <;> rfl
    rw [bare, hid]
    rfl

theorem bare_insert (p : Partition) (r : Record) : (p.insert r).bare = p.bare.insert r.bare := by
  have hid : ((p.erase r.id).byId.insert r.id r).mapValues Record.bare =
      ((p.erase r.id).byId.mapValues Record.bare).insert r.id r.bare :=
    Dict.ext_get? fun id => by
      rw [Dict.get?_mapValues, Dict.get?_insert, Dict.get?_insert, Dict.get?_mapValues]
      split <;> rfl
  rw [insert, bare, hid]
  show _ = (⟨(p.bare.erase r.id).byId.insert r.id r.bare,
    (p.bare.erase r.id).byTime.insert r.moment ()⟩ : Partition)
  rw [← bare_erase]
  rfl

theorem bare_foldl_erase (moments : List Moment) (p : Partition) :
    (moments.foldl (fun p m => p.erase m.id) p).bare =
      moments.foldl (fun p m => p.erase m.id) p.bare := by
  induction moments generalizing p with
  | nil => rfl
  | cons m rest ih => rw [List.foldl_cons, List.foldl_cons, ih, bare_erase]

end Partition

namespace Store

variable {s : Store}

theorem table_bare (s : Store) (name : String) :
    s.bare.table name = (s.table name).map (·.map Partition.bare) := by
  have hget : s.bare.tables.get? name = (s.tables.get? name).map (·.map Partition.bare) :=
    Dict.get?_mapValues ..
  rw [table, table, hget, show s.bare.closed = s.closed from rfl]
  split
  next => rfl
  next => cases s.tables.get? name <;> rfl

theorem bare_setTable (s : Store) (name : String) (partitions : List Partition) :
    Store.bare { s with tables := s.tables.insert name partitions } =
      { s.bare with tables := s.bare.tables.insert name (partitions.map Partition.bare) } := by
  have htables : (s.tables.insert name partitions).mapValues (·.map Partition.bare) =
      (s.tables.mapValues (·.map Partition.bare)).insert name (partitions.map Partition.bare) :=
    Dict.ext_get? fun name' => by
      rw [Dict.get?_mapValues, Dict.get?_insert, Dict.get?_insert, Dict.get?_mapValues]
      split <;> rfl
  rw [bare, htables]
  rfl

theorem map_bare_putRecord (s : Store) (partitions : List Partition) (r : Record) :
    (s.putRecord partitions r).map Partition.bare =
      s.bare.putRecord (partitions.map Partition.bare) r.bare :=
  map_modify (fun p => p.bare_insert r) ..

theorem put_bare (s : Store) (name : String) (records : List Record) :
    s.bare.put name (records.map Record.bare) = (s.put name records).map bare := by
  have hfold (partitions : List Partition) :
      (records.foldl s.putRecord partitions).map Partition.bare =
        (records.map Record.bare).foldl s.bare.putRecord (partitions.map Partition.bare) := by
    induction records generalizing partitions with
    | nil => rfl
    | cons r rest ih => rw [List.foldl_cons, List.map_cons, List.foldl_cons, ih, map_bare_putRecord]
  rw [put, put, table_bare]
  cases s.table name with
  | error e => rfl
  | ok partitions =>
    show Except.ok _ = Except.ok (bare _)
    rw [bare_setTable, hfold]

theorem holds_bare (s : Store) (partitions : List Partition) (id : String) :
    s.bare.holds (partitions.map Partition.bare) id = s.holds partitions id := by
  rw [holds, holds, List.getElem?_map]
  show ((partitions[s.partitionOf id]?).map Partition.bare).any _ = _
  cases partitions[s.partitionOf id]? with
  | none => rfl
  | some p => simp

theorem eraseIds_bare (s : Store) (ids : List String) (partitions : List Partition) :
    s.bare.eraseIds (partitions.map Partition.bare) ids =
      ((s.eraseIds partitions ids).1, (s.eraseIds partitions ids).2.map Partition.bare) := by
  induction ids generalizing partitions with
  | nil => rfl
  | cons id rest ih =>
    have herase : s.bare.eraseId (partitions.map Partition.bare) id =
        (s.eraseId partitions id).map Partition.bare :=
      (map_modify (fun p => p.bare_erase id) ..).symm
    rw [eraseIds, herase, ih, holds_bare]
    rfl

theorem deleteIds_bare (s : Store) (name : String) (ids : List String) :
    s.bare.deleteIds name ids = (s.deleteIds name ids).map fun p => (p.1, p.2.bare) := by
  rw [deleteIds, deleteIds, table_bare]
  cases s.table name with
  | error e => rfl
  | ok partitions =>
    show Except.ok _ = Except.ok (_, bare _)
    rw [bare_setTable, eraseIds_bare]

theorem deleteTimes_bare (s : Store) (name : String) (lower upper : Int) :
    s.bare.deleteTimes name lower upper =
      (s.deleteTimes name lower upper).map fun p => (p.1, p.2.bare) := by
  rw [deleteTimes, deleteTimes, table_bare]
  cases s.table name with
  | error e => rfl
  | ok partitions =>
    have hdeleted : (partitions.map Partition.bare).flatMap (·.moments lower upper) =
        partitions.flatMap (·.moments lower upper) := List.flatMap_map ..
    have hkept : ((partitions.map Partition.bare).map fun p =>
          (p.moments lower upper).foldl (fun p m => p.erase m.id) p) =
        (partitions.map fun p =>
          (p.moments lower upper).foldl (fun p m => p.erase m.id) p).map Partition.bare := by
      rw [List.map_map, List.map_map]
      exact List.map_congr_left fun p _ => (p.bare_foldl_erase _).symm
    show Except.ok (((partitions.map Partition.bare).flatMap (·.moments lower upper)).map (·.id), _) =
      Except.ok (_, bare _)
    rw [bare_setTable, hdeleted, ← hkept]

def Alike (s s' : Store) : Prop := s.bare = s'.bare

variable {s' : Store}

theorem Alike.put (h : s.Alike s') (name : String) {records records' : List Record}
    (hr : records.map Record.bare = records'.map Record.bare) :
    (s.put name records).map bare = (s'.put name records').map bare := by
  rw [← put_bare, ← put_bare, hr, h]

theorem Alike.deleteIds (h : s.Alike s') (name : String) (ids : List String) :
    ((s.deleteIds name ids).map fun p => (p.1, p.2.bare)) =
      (s'.deleteIds name ids).map fun p => (p.1, p.2.bare) := by
  rw [← deleteIds_bare, ← deleteIds_bare, h]

theorem Alike.deleteTimes (h : s.Alike s') (name : String) (lower upper : Int) :
    ((s.deleteTimes name lower upper).map fun p => (p.1, p.2.bare)) =
      (s'.deleteTimes name lower upper).map fun p => (p.1, p.2.bare) := by
  rw [← deleteTimes_bare, ← deleteTimes_bare, h]

end Store

end Corpus
