import Corpus.Proofs.Index.Document
import Corpus.Proofs.Index.Shards
import Corpus.Queue.Event

/-! Changes of a table, as its index follows them: each reaches the segments that it concerns, and
leaves of every identity what its analysis gives. -/

namespace Corpus

open Segment

namespace Change

def edit (schema : Schema) (analyzers : Analyzers) : Change → Edit
  | .upsert r =>
    match Document.ofRecord schema analyzers r with
    | .ok d => .upsert d
    | .error _ => .delete r.id
  | .tombstone id => .delete id
  | .clear => .clear

theorem nodup_targets (table : String) (shards : Nat) (c : Change) :
    (c.targets table shards).Nodup := by
  rw [targets]
  split
  next => exact List.pairwise_singleton ..
  next => exact List.nodup_range

theorem lt_of_mem_targets {table : String} {shards i : Nat} {c : Change} (hn : 0 < shards)
    (hi : i ∈ c.targets table shards) : i < shards := by
  rw [targets] at hi
  split at hi
  next id _ => exact List.mem_singleton.1 hi ▸ shardOf_lt hn table id
  next => exact List.mem_range.1 hi

variable {schema : Schema} {analyzers : Analyzers}

theorem apply_analyze (c : Change) (s : Segment) :
    c.apply (c.analyze schema analyzers) s = (c.edit schema analyzers).apply s := by
  cases c with
  | upsert r =>
    simp only [analyze, apply, edit]
    cases Document.ofRecord schema analyzers r <;> rfl
  | tombstone id => rfl
  | clear => rfl

theorem of_edit_eq_upsert {c : Change} {d : Document} (h : c.edit schema analyzers = .upsert d) :
    c.id? = some d.id ∧ Fields.OnePath d.fields := by
  cases c with
  | upsert r =>
    rw [edit] at h
    cases hd : Document.ofRecord schema analyzers r with
    | ok d' =>
      rw [hd] at h
      cases h
      exact ⟨congrArg some (Document.ofRecord_id hd).symm, Document.ofRecord_onePath hd⟩
    | error e => rw [hd] at h; cases h
  | tombstone id => cases h
  | clear => cases h

theorem leave_of_id?_ne {c : Change} {id id' : String} (h : c.id? = some id') (hne : id ≠ id')
    (last : Option Document) : (c.edit schema analyzers).leave id last = last := by
  cases c with
  | upsert r =>
    cases h
    rw [edit]
    cases hd : Document.ofRecord schema analyzers r with
    | ok d => exact if_neg fun he => hne (he.trans (Document.ofRecord_id hd))
    | error e => exact if_neg hne
  | tombstone id => cases h; exact if_neg hne
  | clear => cases h

end Change

namespace Shards

def follow (table : String) (analyzers : Analyzers) (s : Shards) (step : Schema × Change) : Shards :=
  (step.2.targets table s.length).foldl
    (fun s shard => s.update shard (step.2.apply (step.2.analyze step.1 analyzers))) s

def after (table : String) (analyzers : Analyzers) (count : Nat) (history : List (Schema × Change)) :
    Shards :=
  history.foldl (follow table analyzers) (.new count)

variable {table : String} {analyzers : Analyzers} {s : Shards}

theorem Sound.foldl_update (h : s.Sound table) {e : Edit} {shards : List Nat}
    (he : ∀ d, e = .upsert d →
      Fields.OnePath d.fields ∧ ∀ i ∈ shards, shardOf table d.id s.length = i) :
    (shards.foldl (fun s i => s.update i e.apply) s).Sound table ∧
      ∀ id, (shards.foldl (fun s i => s.update i e.apply) s).document? table id =
        if shardOf table id s.length ∈ shards then e.leave id (s.document? table id)
        else s.document? table id := by
  induction shards generalizing s with
  | nil => exact ⟨h, fun _ => rfl⟩
  | cons i rest ih =>
    have hi : ∀ d, e = .upsert d → Fields.OnePath d.fields ∧ shardOf table d.id s.length = i :=
      fun d hd => ⟨(he d hd).1, (he d hd).2 i (.head _)⟩
    have hrest := ih (h.update hi) fun d hd =>
      ⟨(he d hd).1, fun j hj => by
        rw [length_update]
        exact (he d hd).2 j (.tail _ hj)⟩
    refine ⟨hrest.1, fun id => ?_⟩
    rw [List.foldl_cons, hrest.2, length_update, h.document?_update (fun d hd => (he d hd).1)]
    by_cases hr : shardOf table id s.length ∈ rest
    · have hr' : shardOf table id s.length ∈ i :: rest := .tail _ hr
      rw [if_pos hr, if_pos hr']
      by_cases hi : shardOf table id s.length = i
      · rw [if_pos hi, Edit.leave_leave]
      · rw [if_neg hi]
    · simp [hr]

theorem follow_eq (table : String) (s : Shards) (step : Schema × Change) :
    s.follow table analyzers step =
      (step.2.targets table s.length).foldl
        (fun s i => s.update i (step.2.edit step.1 analyzers).apply) s := by
  rw [follow]
  congr 1
  funext s i
  rw [funext (step.2.apply_analyze)]

theorem Sound.follow_and (h : s.Sound table) (step : Schema × Change) :
    (s.follow table analyzers step).Sound table ∧
      ∀ id, (s.follow table analyzers step).document? table id =
        if shardOf table id s.length ∈ step.2.targets table s.length then
          (step.2.edit step.1 analyzers).leave id (s.document? table id)
        else s.document? table id := by
  rw [follow_eq]
  refine h.foldl_update fun d hd => ?_
  obtain ⟨hid, hone⟩ := Change.of_edit_eq_upsert hd
  refine ⟨hone, fun i hi => ?_⟩
  rw [Change.targets, hid] at hi
  exact (List.mem_singleton.1 hi).symm

theorem Sound.follow (h : s.Sound table) (step : Schema × Change) :
    (s.follow table analyzers step).Sound table :=
  (h.follow_and step).1

theorem Sound.document?_follow (h : s.Sound table) (step : Schema × Change) (id : String) :
    (s.follow table analyzers step).document? table id =
      (step.2.edit step.1 analyzers).leave id (s.document? table id) := by
  rw [(h.follow_and step).2, Change.targets]
  cases hid : step.2.id? with
  | none =>
    have hmem : shardOf table id s.length ∈ List.range s.length :=
      List.mem_range.2 (shardOf_lt h.nonempty table id)
    exact if_pos hmem
  | some id' =>
    by_cases he : id = id'
    · exact if_pos (he ▸ List.mem_singleton.2 rfl)
    · rw [Change.leave_of_id?_ne hid he, ite_self]

theorem Sound.foldl_follow (h : s.Sound table) (history : List (Schema × Change)) :
    (history.foldl (Shards.follow table analyzers) s).Sound table ∧
      ∀ id, (history.foldl (Shards.follow table analyzers) s).document? table id =
        history.foldl (fun last step => (step.2.edit step.1 analyzers).leave id last)
          (s.document? table id) := by
  induction history generalizing s with
  | nil => exact ⟨h, fun _ => rfl⟩
  | cons step rest ih =>
    refine ⟨(ih (h.follow step)).1, fun id => ?_⟩
    rw [List.foldl_cons, List.foldl_cons, (ih (h.follow step)).2, h.document?_follow]

theorem sound_after (table : String) (analyzers : Analyzers) (count : Nat)
    (history : List (Schema × Change)) : (after table analyzers count history).Sound table :=
  ((Sound.new table count).foldl_follow history).1

theorem document?_new (table : String) (count : Nat) (id : String) :
    (Shards.new count).document? table id = none := by
  refine Option.bind_eq_none_iff.2 fun segment hs => ?_
  rw [List.eq_of_mem_replicate (List.mem_of_getElem? hs)]
  rfl

theorem document?_after (table : String) (analyzers : Analyzers) (count : Nat)
    (history : List (Schema × Change)) (id : String) :
    (after table analyzers count history).document? table id =
      history.foldl (fun last step => (step.2.edit step.1 analyzers).leave id last) none := by
  rw [after, ((Sound.new table count).foldl_follow history).2, document?_new]

end Shards

end Corpus
