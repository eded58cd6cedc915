import Corpus.Proofs.Queue.Indexer

/-! Settling: the indexer follows all events that wait, in batches of any size. -/

namespace Corpus.Indexer

variable {analyzers : Analyzers}

theorem waiting_step (x : Indexer) (limit shard : Nat) :
    (x.step analyzers limit shard).queues.waiting =
      x.queues.waiting.modify shard (·.drop limit) := by
  refine List.ext_getElem? fun i => ?_
  rw [step, List.getElem?_modify, List.getElem?_modify, List.getD_eq_getElem?_getD]
  by_cases hi : shard = i
  · subst hi
    cases x.queues.waiting[shard]? with
    | none => rfl
    | some events => simp [List.drop_eq_drop_iff]
  · simp [hi]

theorem waiting_steps (limit shard n : Nat) (x : Indexer) :
    ((List.range n).foldl (fun x _ => x.step analyzers limit shard) x).queues.waiting =
      x.queues.waiting.modify shard (·.drop (n * limit)) := by
  induction n with
  | zero => simp [show (fun l : List Event => l) = id from rfl]
  | succ n ih =>
    rw [List.range_succ, List.foldl_append, List.foldl_cons, List.foldl_nil, waiting_step, ih,
      List.modify_modify_eq]
    congr 1
    funext events
    rw [Function.comp_apply, List.drop_drop, Nat.succ_mul]

theorem waiting_drain (x : Indexer) (limit shard i : Nat) :
    (x.drain analyzers limit shard).queues.waiting[i]? =
      x.queues.waiting[i]?.map fun events => if shard = i then [] else events := by
  rw [drain, waiting_steps, List.getElem?_modify]
  by_cases hi : shard = i
  · subst hi
    cases hw : x.queues.waiting[shard]? with
    | none => rfl
    | some events =>
      have hle : events.length ≤ events.length * max limit 1 :=
        Nat.le_mul_of_pos_right _ (Nat.lt_of_lt_of_le Nat.zero_lt_one (Nat.le_max_right ..))
      simp [List.getD_eq_getElem?_getD, hw, List.drop_eq_nil_iff.2 hle]
  · simp [hi]

theorem waiting_drains (limit : Nat) (shards : List Nat) (x : Indexer) (i : Nat) :
    (shards.foldl (drain analyzers limit) x).queues.waiting[i]? =
      x.queues.waiting[i]?.map fun events => if i ∈ shards then [] else events := by
  induction shards generalizing x with
  | nil => simp
  | cons shard rest ih =>
    rw [List.foldl_cons, ih, waiting_drain, Option.map_map]
    congr 1
    funext events
    by_cases hi : shard = i
    · simp [hi]
    · simp [hi, Ne.symm hi]

theorem nothing_waits_settle (analyzers : Analyzers) (limit : Nat) (x : Indexer) :
    ∀ events ∈ (x.settle analyzers limit).queues.waiting, events = [] := by
  intro events he
  obtain ⟨i, hi⟩ := List.mem_iff_getElem?.1 he
  rw [settle, waiting_drains] at hi
  obtain ⟨old, ho, rfl⟩ := Option.map_eq_some_iff.1 hi
  exact if_pos (List.mem_range.2 (List.getElem?_eq_some_iff.1 ho).1)

def work (analyzers : Analyzers) (x : Indexer) (batches : List (Nat × Nat)) : Indexer :=
  batches.foldl (fun x batch => x.step analyzers batch.1 batch.2) x

theorem exists_work_drain (analyzers : Analyzers) (limit shard : Nat) (x : Indexer) :
    ∃ batches, x.drain analyzers limit shard = x.work analyzers batches :=
  ⟨(List.range (x.queues.waiting.getD shard []).length).map fun _ => (max limit 1, shard), by
    rw [work, List.foldl_map]
    rfl⟩

theorem exists_work_settle (analyzers : Analyzers) (limit : Nat) (x : Indexer) :
    ∃ batches, x.settle analyzers limit = x.work analyzers batches := by
  rw [settle]
  generalize List.range x.queues.shards = shards
  induction shards generalizing x with
  | nil => exact ⟨[], rfl⟩
  | cons shard rest ih =>
    obtain ⟨first, hfirst⟩ := exists_work_drain analyzers limit shard x
    obtain ⟨later, hlater⟩ := ih (x.drain analyzers limit shard)
    refine ⟨first ++ later, ?_⟩
    rw [List.foldl_cons, hlater, hfirst, work, work, work, List.foldl_append]

end Corpus.Indexer
