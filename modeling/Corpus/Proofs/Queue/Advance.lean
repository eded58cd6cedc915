import Corpus.Proofs.Queue.Indexer
import Corpus.Queue.Relay

/-! How far the indexes of a catalog have come: which events the segments of each shard have followed, and
in what order.  Of the schemas nothing changes meanwhile. -/

namespace Corpus

theorem Event.zip_analyzeAll (schemaOf : Nat → Schema) (analyzers : Analyzers) (events : List Event) :
    events.zip (analyzeAll schemaOf analyzers events) =
      events.map fun v => (v, v.change.analyze (schemaOf v.epoch) analyzers) := by
  rw [analyzeAll, List.zip_map_right, List.zip_eq_zipWith, List.zipWith_self, List.map_map]
  rfl

def Segment.advance (schema : Schema) (analyzers : Analyzers) (s : Segment) (events : List Event) :
    Segment :=
  events.foldl (fun s v => (v.change.apply (v.change.analyze schema analyzers) s).bump) s

namespace Shards

def advance (schema : Schema) (analyzers : Analyzers) (s : Shards) (events : Nat → List Event) :
    Shards :=
  s.mapIdx fun i segment => segment.advance schema analyzers (events i)

variable {schema : Schema} {analyzers : Analyzers}

theorem getElem?_advance (s : Shards) (events : Nat → List Event) (i : Nat) :
    (s.advance schema analyzers events)[i]? =
      s[i]?.map fun segment => segment.advance schema analyzers (events i) :=
  List.getElem?_mapIdx

theorem advance_nil (s : Shards) : s.advance schema analyzers (fun _ => []) = s := by
  refine List.ext_getElem? fun i => ?_
  rw [getElem?_advance]
  exact Option.map_id'

theorem update_advance (s : Shards) (events : Nat → List Event) (i : Nat) (v : Event) :
    (s.advance schema analyzers events).update i
        (v.change.apply (v.change.analyze schema analyzers)) =
      s.advance schema analyzers fun j => if j = i then events j ++ [v] else events j := by
  refine List.ext_getElem? fun j => ?_
  rw [getElem?_update, getElem?_advance, getElem?_advance, Option.map_map]
  congr 1
  funext segment
  by_cases hj : i = j
  · subst hj
    simp [Segment.advance]
  · simp [hj, Ne.symm hj]

end Shards

namespace Catalog

/-- In every segment, the events of its table were followed that its shard was given, and no others. -/
structure Advanced (analyzers : Analyzers) (c : Catalog) (events : Nat → List Event) (d : Catalog) :
    Prop where
  shardCount : d.shardCount = c.shardCount
  nextEpoch : d.nextEpoch = c.nextEpoch
  current : d.current = c.current
  tables : ∀ e, d.tables.get? e = (c.tables.get? e).map fun t =>
    { t with
      shards := t.shards.advance t.schema analyzers fun i => (events i).filter (·.epoch = e) }

variable {analyzers : Analyzers} {c d d' : Catalog} {events : Nat → List Event}

theorem Advanced.refl (analyzers : Analyzers) (c : Catalog) : c.Advanced analyzers (fun _ => []) c where
  shardCount := rfl
  nextEpoch := rfl
  current := rfl
  tables e := by
    simp only [List.filter_nil, Shards.advance_nil]
    exact Option.map_id'.symm

theorem Advanced.unique (h : c.Advanced analyzers events d) (h' : c.Advanced analyzers events d') :
    d = d' := by
  have htables : d.tables = d'.tables := Dict.ext_get? fun e => (h.tables e).trans (h'.tables e).symm
  cases d
  cases d'
  cases htables
  cases h.shardCount.trans h'.shardCount.symm
  cases h.nextEpoch.trans h'.nextEpoch.symm
  cases h.current.trans h'.current.symm
  rfl

theorem Advanced.schemaOf (h : c.Advanced analyzers events d) : d.schemaOf = c.schemaOf := by
  funext e
  rw [Catalog.schemaOf, Catalog.schemaOf, h.tables, Option.map_map]
  rfl

theorem Advanced.congr (h : c.Advanced analyzers events d) {events' : Nat → List Event}
    (he : ∀ i, events i = events' i) : c.Advanced analyzers events' d :=
  funext he ▸ h

theorem Advanced.follow (h : c.Advanced analyzers events d) (i : Nat) (v : Event) :
    c.Advanced analyzers (fun j => if j = i then events j ++ [v] else events j)
      (Indexer.follow i d (v, v.change.analyze (c.schemaOf v.epoch) analyzers)) where
  shardCount := h.shardCount
  nextEpoch := h.nextEpoch
  current := h.current
  tables e := by
    have hfilter (p : Event → Bool) (j : Nat) :
        (if j = i then events j ++ [v] else events j).filter p =
          if j = i then (events j).filter p ++ (if p v then [v] else []) else (events j).filter p := by
      split <;> simp [List.filter_append, List.filter_cons]
    rw [Indexer.follow, get?_alter]
    simp only [hfilter]
    by_cases he : e = v.epoch
    · subst he
      rw [if_pos rfl, h.tables, Option.map_map]
      cases ht : c.tables.get? v.epoch with
      | none => rfl
      | some t =>
        have hs : c.schemaOf v.epoch = t.schema := by rw [Catalog.schemaOf, ht]; rfl
        simp only [Option.map_some, Function.comp_apply, hs, Shards.update_advance, decide_true,
          if_true]
    · have hv : ¬v.epoch = e := Ne.symm he
      simp only [if_neg he, h.tables, hv, decide_false, Bool.false_eq_true, if_false, List.append_nil,
        ite_self]

theorem Advanced.foldl_batch (h : c.Advanced analyzers events d) (shard : Nat) (batch : List Event) :
    c.Advanced analyzers (fun i => if i = shard then events i ++ batch else events i)
      ((batch.zip (Event.analyzeAll c.schemaOf analyzers batch)).foldl (Indexer.follow shard) d) := by
  rw [Event.zip_analyzeAll, List.foldl_map]
  induction batch generalizing d events with
  | nil => exact h.congr fun i => by simp
  | cons v rest ih =>
    refine (ih (h.follow shard v)).congr fun i => ?_
    by_cases hi : i = shard <;> simp [hi]

def followNow (analyzers : Analyzers) (shards : Nat) (c : Catalog) (v : Event) : Catalog :=
  (v.change.targets v.table shards).foldl
    (fun c i => Indexer.follow i c (v, v.change.analyze (c.schemaOf v.epoch) analyzers)) c

theorem Advanced.foldl_follow (h : c.Advanced analyzers events d) (v : Event) {shards : List Nat}
    (hn : shards.Nodup) :
    c.Advanced analyzers (fun j => if j ∈ shards then events j ++ [v] else events j)
      (shards.foldl
        (fun c i => Indexer.follow i c (v, v.change.analyze (c.schemaOf v.epoch) analyzers)) d) := by
  induction shards generalizing d events with
  | nil => exact h.congr fun j => (if_neg List.not_mem_nil).symm
  | cons i rest ih =>
    obtain ⟨hi, hrest⟩ := List.nodup_cons.1 hn
    have hstep := h.follow i v
    rw [← h.schemaOf] at hstep
    refine (ih hstep hrest).congr fun j => ?_
    by_cases hj : j = i
    · subst hj
      simp [hi]
    · simp [hj]

theorem Advanced.followNow (h : c.Advanced analyzers events d) (shards : Nat) (v : Event) :
    c.Advanced analyzers
      (fun j => if j ∈ v.change.targets v.table shards then events j ++ [v] else events j)
      (d.followNow analyzers shards v) :=
  h.foldl_follow v (v.change.nodup_targets v.table shards)

theorem Advanced.foldl_followNow (h : c.Advanced analyzers events d) (shards : Nat)
    (more : List Event) :
    c.Advanced analyzers
      (fun j => events j ++ more.filter fun v => j ∈ v.change.targets v.table shards)
      (more.foldl (Catalog.followNow analyzers shards) d) := by
  induction more generalizing d events with
  | nil => exact h.congr fun j => (List.append_nil _).symm
  | cons v rest ih =>
    refine (ih (h.followNow shards v)).congr fun j => ?_
    by_cases hj : j ∈ v.change.targets v.table shards <;> simp [hj]

end Catalog

end Corpus
