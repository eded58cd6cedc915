import Corpus.Proofs.Queue.Indexer

/-! The changes that wait, seen from one identity. -/

namespace Corpus

namespace Change

def concerns (id : String) (c : Change) : Bool := c.id?.all (· = id)

theorem edit_leave_of_not_concerns {id : String} {c : Change} (h : c.concerns id = false)
    (schema : Schema) (analyzers : Analyzers) (last : Option Document) :
    (c.edit schema analyzers).leave id last = last := by
  cases hid : c.id? with
  | none => rw [concerns, hid] at h; cases h
  | some id' =>
    refine leave_of_id?_ne hid (fun he => ?_) last
    rw [concerns, hid, he] at h
    simp at h

theorem leave_edit_upsert (schema : Schema) (analyzers : Analyzers) (r : Record)
    (last : Option Document) :
    ((upsert r).edit schema analyzers).leave r.id last =
      (Document.ofRecord schema analyzers r).toOption := by
  rw [edit]
  cases h : Document.ofRecord schema analyzers r with
  | ok d => exact if_pos (Document.ofRecord_id h).symm
  | error e => exact if_pos rfl

theorem mem_targets_of_concerns {table id : String} {shards : Nat} {c : Change} (hn : 0 < shards)
    (h : c.concerns id) : shardOf table id shards ∈ c.targets table shards := by
  rw [targets]
  cases hid : c.id? with
  | none => exact List.mem_range.2 (shardOf_lt hn table id)
  | some id' =>
    rw [concerns, hid] at h
    obtain rfl : id' = id := by simpa using h
    exact List.mem_singleton.2 rfl

end Change

namespace Queues

variable {q : Queues}

/-- The changes of an incarnation of a table that wait and that an identity's shard has to follow for
it. -/
def pending (q : Queues) (table : String) (epoch : Nat) (id : String) : List Change :=
  ((q.waiting.getD (shardOf table id q.shards) []).filter fun v =>
    v.epoch = epoch && v.change.concerns id).map (·.change)

theorem mem_targets_of_concerns (hq : 0 < q.shards) {v : Event} {id : String}
    (h : v.change.concerns id) : shardOf v.table id q.shards ∈ q.targets v :=
  Change.mem_targets_of_concerns hq h

theorem pending_accept (hq : 0 < q.shards) (v : Event) {table : String} {epoch : Nat}
    (ht : v.epoch = epoch → v.table = table) (id : String) :
    (q.accept v).pending table epoch id =
      q.pending table epoch id ++
        if v.epoch = epoch ∧ v.change.concerns id then [v.change] else [] := by
  have hlt := shardOf_lt hq table id
  rw [pending, pending, shards_accept, List.getD_eq_getElem?_getD, getElem?_accept,
    List.getD_eq_getElem?_getD, List.getElem?_eq_getElem hlt]
  simp only [Option.map_some, Option.getD_some]
  by_cases hv : v.epoch = epoch ∧ v.change.concerns id
  · have hmem := mem_targets_of_concerns hq hv.2
    rw [ht hv.1] at hmem
    rw [if_pos hmem, if_pos hv]
    simp [List.filter_append, hv]
  · rw [if_neg hv, List.append_nil]
    split
    next => simp [List.filter_append, hv]
    next => rfl

theorem pending_acceptAll (hq : 0 < q.shards) (t : Table) (changes : List Change) {table : String}
    {epoch : Nat} (ht : t.epoch = epoch → t.name = table) (id : String) :
    (q.acceptAll t changes).pending table epoch id =
      q.pending table epoch id ++
        if t.epoch = epoch then changes.filter (·.concerns id) else [] := by
  induction changes generalizing q with
  | nil => simp [acceptAll]
  | cons c rest ih =>
    have hq' : 0 < (q.accept ⟨t.name, t.epoch, c⟩).shards := by rwa [shards_accept]
    refine (ih hq').trans ?_
    rw [pending_accept hq ⟨t.name, t.epoch, c⟩ ht, List.append_assoc]
    by_cases he : t.epoch = epoch
    · by_cases hc : c.concerns id <;> simp [he, hc]
    · simp [he]

def Turn (q : Queues) (shard : Nat) (v : Event) (table : String) (epoch : Nat) (id : String) : Prop :=
  shardOf table id q.shards = shard ∧ v.epoch = epoch ∧ v.change.concerns id

theorem pending_drop {shard : Nat} {v : Event} {rest : List Event}
    (hw : q.waiting[shard]? = some (v :: rest)) (q' : Queues)
    (hq : q'.waiting = q.waiting.modify shard (·.drop 1)) (table : String) (epoch : Nat)
    (id : String) :
    (q.Turn shard v table epoch id →
      q.pending table epoch id = v.change :: q'.pending table epoch id) ∧
    (¬q.Turn shard v table epoch id → q'.pending table epoch id = q.pending table epoch id) := by
  have hs : q'.shards = q.shards := by rw [shards, hq, List.length_modify]; rfl
  rw [pending, pending, hs, hq, List.getD_eq_getElem?_getD, List.getD_eq_getElem?_getD,
    List.getElem?_modify, Turn]
  by_cases hi : shardOf table id q.shards = shard
  · rw [hi, hw]
    simp only [Option.getD_some, Option.map_eq_map, Option.map_some, if_true, List.drop_one,
      List.tail_cons, true_and]
    constructor
    · intro ⟨he, hc⟩
      rw [List.filter_cons_of_pos (by simp [he, hc])]
      rfl
    · intro hn
      rw [List.filter_cons_of_neg (by simpa using hn)]
  · have hi' : shard ≠ shardOf table id q.shards := Ne.symm hi
    refine ⟨fun h => absurd h.1 hi, fun _ => ?_⟩
    simp [hi']

end Queues

end Corpus
