import Corpus.Proofs.Queue.Indexer
import Corpus.Proofs.Queue.Relay

/-! What an indexer does at once, a relay does step by step: a push is an announcement that is put into its
queue, and a batch is taken, followed event by event, and reported. -/

namespace Corpus

namespace Relay

variable {analyzers : Analyzers} {threshold : Nat} {r : Relay} {x : Indexer}

/-- Nobody is at work, and all else is as in the indexer. -/
structure Carries (r : Relay) (x : Indexer) : Prop where
  catalog : r.catalog = x.catalog
  barrier : r.barrier = x.queues.barrier
  waiting : r.lanes.map (·.waiting) = x.queues.waiting
  idle : ∀ l ∈ r.lanes, l.announced = [] ∧ l.held = [] ∧ l.followed = []

theorem carries_new (shards : Nat) : (new (.new shards) shards).Carries (.new shards) where
  catalog := rfl
  barrier := rfl
  waiting := List.map_replicate
  idle l hl := by
    rw [List.eq_of_mem_replicate hl]
    exact ⟨rfl, rfl, rfl⟩

theorem Carries.modify {r' : Relay} {x' : Indexer} (h : r.Carries x) {shard : Nat} {f : Lane → Lane}
    {g : List Event → List Event} (hlanes : r'.lanes = r.lanes.modify shard f)
    (hcatalog : r'.catalog = x'.catalog) (hbarrier : r'.barrier = x'.queues.barrier)
    (hqueue : x'.queues.waiting = x.queues.waiting.modify shard g)
    (hf : ∀ l, r.lanes[shard]? = some l → (f l).waiting = g l.waiting ∧
      (f l).announced = [] ∧ (f l).held = [] ∧ (f l).followed = []) : r'.Carries x' where
  catalog := hcatalog
  barrier := hbarrier
  waiting := by
    refine List.ext_getElem? fun i => ?_
    rw [hlanes, hqueue, ← h.waiting, List.getElem?_map, List.getElem?_modify, List.getElem?_modify,
      List.getElem?_map]
    cases hl : r.lanes[i]? with
    | none => rfl
    | some l =>
      by_cases hi : shard = i
      · subst hi
        simp [(hf l hl).1]
      · simp [hi]
  idle l hl := by
    obtain ⟨i, hi⟩ := List.mem_iff_getElem?.1 hl
    rw [hlanes, List.getElem?_modify] at hi
    obtain ⟨old, ho, rfl⟩ := Option.map_eq_some_iff.1 hi
    split
    next hs => exact (hf old (hs ▸ ho)).2
    next => exact h.idle old (List.mem_of_getElem? ho)

theorem Carries.push (h : r.Carries x) (shard : Nat) (v : Event) :
    (r.run analyzers threshold [.announce shard v, .enqueue shard 0]).Carries
      { x with queues := x.queues.push shard v } := by
  refine h.modify (f := fun l => (l.announce v).enqueue 0) (List.modify_modify_eq ..) h.catalog ?_ rfl
    fun l hl => ?_
  · exact congrArg (·.register shard) h.barrier
  · obtain ⟨ha, hh, hf⟩ := h.idle l (List.mem_of_getElem? hl)
    rw [Lane.announce, ha]
    exact ⟨rfl, rfl, hh, hf⟩

theorem Carries.foldl_push (h : r.Carries x) (v : Event) (shards : List Nat) :
    (r.run analyzers threshold (shards.flatMap fun i => [.announce i v, .enqueue i 0])).Carries
      { x with queues := shards.foldl (fun q i => q.push i v) x.queues } := by
  induction shards generalizing r x with
  | nil => exact h
  | cons i rest ih => exact ih (h.push i v)

theorem Carries.accept (h : r.Carries x) (v : Event) :
    (r.run analyzers threshold (v.sending x.queues.shards)).Carries
      { x with queues := x.queues.accept v } :=
  h.foldl_push v (x.queues.targets v)

end Relay

namespace Lane

def followAll (l : Lane) : Lane := { l with held := [], followed := l.followed ++ l.held.map (·.1) }

theorem followAll_of_held_eq_nil {l : Lane} (h : l.held = []) : l.followAll = l := by
  rw [followAll, h, List.map_nil, List.append_nil, ← h]

theorem followAll_follow (l : Lane) : l.follow.followAll = l.followAll := by
  rw [follow]
  split
  next => rfl
  next task rest h => simp [followAll, h]

end Lane

namespace Relay

variable {analyzers : Analyzers} {threshold : Nat} {r : Relay} {x : Indexer}

theorem run_follow (analyzers : Analyzers) (threshold : Nat) (r : Relay) (shard : Nat) :
    r.run analyzers threshold (List.replicate (r.lane shard).held.length (.follow shard)) =
      { r with
        catalog := (r.lane shard).held.foldl (Indexer.follow shard) r.catalog
        lanes := r.lanes.modify shard (·.followAll) } := by
  generalize hh : (r.lane shard).held = tasks
  induction tasks generalizing r with
  | nil =>
    have hlanes : r.lanes.modify shard (·.followAll) = r.lanes := by
      refine List.ext_getElem? fun i => ?_
      rw [List.getElem?_modify]
      cases hl : r.lanes[i]? with
      | none => rfl
      | some l =>
        by_cases hi : shard = i
        · subst hi
          rw [lane_eq hl] at hh
          simp [Lane.followAll_of_held_eq_nil hh]
        · simp [hi]
    rw [hlanes]
    rfl
  | cons task rest ih =>
    have hlt : shard < r.lanes.length := by
      refine Nat.lt_of_not_le fun hle => ?_
      rw [lane_of_length_le hle] at hh
      cases hh
    have hrest : ((r.tick analyzers threshold (.follow shard)).lane shard).held = rest := by
      rw [lane_of_modify rfl, if_pos ⟨rfl, hlt⟩, Lane.held_follow, hh]
      rfl
    have hcatalog : (r.tick analyzers threshold (.follow shard)).catalog =
        Indexer.follow shard r.catalog task := by
      rw [tick, hh]
      rfl
    have hlanes : (r.tick analyzers threshold (.follow shard)).lanes.modify shard (·.followAll) =
        r.lanes.modify shard (·.followAll) :=
      (List.modify_modify_eq ..).trans (congrArg _ (funext Lane.followAll_follow))
    rw [List.length_cons, List.replicate_succ, run, List.foldl_cons, ← run, ih _ hrest, hcatalog,
      hlanes]
    rfl

def batchTicks (limit shard : Nat) (division : Division) (r : Relay) : List Tick :=
  .take shard limit division ::
    (List.replicate ((r.lane shard).waiting.take limit).length (.follow shard) ++ [.report shard])

theorem run_batchTicks (analyzers : Analyzers) (threshold limit : Nat) (division : Division)
    {shard : Nat} (hlt : shard < r.lanes.length)
    (hidle : (r.lane shard).held = [] ∧ (r.lane shard).followed = []) :
    r.run analyzers threshold (r.batchTicks limit shard division) =
      { r with
        catalog := (((r.lane shard).waiting.take limit).zip
          (Event.analyzeAll r.catalog.schemaOf analyzers ((r.lane shard).waiting.take limit))).foldl
            (Indexer.follow shard) r.catalog
        barrier := r.barrier.complete shard ((r.lane shard).waiting.take limit).length
        lanes := r.lanes.modify shard fun l =>
          (l.take (Event.analyzeAll r.catalog.schemaOf analyzers) limit).followAll.report } := by
  let taken := r.tick analyzers threshold (.take shard limit division)
  have hlanes : taken.lanes =
      r.lanes.modify shard (·.take (Event.analyzeAll r.catalog.schemaOf analyzers) limit) := by
    rw [← Event.analyzeBatch_eq threshold r.catalog.schemaOf analyzers division]
    rfl
  have htaken : taken.lane shard =
      { r.lane shard with
        waiting := (r.lane shard).waiting.drop limit
        held := ((r.lane shard).waiting.take limit).zip
          (Event.analyzeAll r.catalog.schemaOf analyzers ((r.lane shard).waiting.take limit)) } := by
    rw [lane_of_modify hlanes, if_pos ⟨rfl, hlt⟩, Lane.take, if_pos hidle]
  have hfollow := run_follow analyzers threshold taken shard
  have hlen : (taken.lane shard).held.length = ((r.lane shard).waiting.take limit).length := by
    rw [htaken]
    simp [Event.analyzeAll]
  have hfinished (r' : Relay) (hl : r'.lanes = taken.lanes.modify shard (·.followAll)) :
      (r'.lane shard).finished.length = ((r.lane shard).waiting.take limit).length := by
    have hlt' : shard < taken.lanes.length := by rwa [hlanes, List.length_modify]
    rw [lane_of_modify hl, if_pos ⟨rfl, hlt'⟩, Lane.followAll, Lane.finished, if_pos rfl, ← hlen]
    simp [htaken, hidle.2]
  have hmodify : (taken.lanes.modify shard (·.followAll)).modify shard (·.report) =
      r.lanes.modify shard fun l =>
        (l.take (Event.analyzeAll r.catalog.schemaOf analyzers) limit).followAll.report := by
    rw [hlanes, List.modify_modify_eq, List.modify_modify_eq]
    rfl
  have hrun : r.run analyzers threshold (r.batchTicks limit shard division) =
      (taken.run analyzers threshold
        (List.replicate (taken.lane shard).held.length (.follow shard))).tick analyzers threshold
          (.report shard) := by
    rw [hlen]
    exact run_append ..
  rw [hrun, hfollow, tick, hfinished _ rfl, hmodify, htaken]
  rfl

theorem Carries.lane_waiting (h : r.Carries x) (shard : Nat) :
    (r.lane shard).waiting = x.queues.waiting.getD shard [] := by
  rw [← h.waiting, List.getD_eq_getElem?_getD, List.getElem?_map, lane, List.getD_eq_getElem?_getD]
  cases r.lanes[shard]? <;> rfl

theorem Carries.step (h : r.Carries x) (limit : Nat) {shard : Nat} (hlt : shard < r.lanes.length)
    (division : Division) :
    (r.run analyzers threshold (r.batchTicks limit shard division)).Carries
      (x.step analyzers limit shard) := by
  have hl := getElem?_lane hlt
  obtain ⟨hannounced, hheld, hfollowed⟩ := h.idle _ (List.mem_of_getElem? hl)
  rw [run_batchTicks analyzers threshold limit division hlt ⟨hheld, hfollowed⟩, h.lane_waiting, h.catalog,
    h.barrier]
  refine h.modify rfl rfl rfl rfl fun l hl' => ?_
  cases hl.symm.trans hl'
  have hdrop : (r.lane shard).waiting.drop limit =
      (r.lane shard).waiting.drop ((x.queues.waiting.getD shard []).take limit).length := by
    rw [← h.lane_waiting, List.drop_eq_drop_iff, List.length_take]
    omega
  rw [Lane.take, if_pos ⟨hheld, hfollowed⟩, Lane.followAll, Lane.report, if_pos rfl]
  exact ⟨hdrop, hannounced, rfl, rfl⟩

end Relay

namespace Indexer

inductive Job
  | accept (v : Event)
  | batch (limit shard : Nat)

def does (analyzers : Analyzers) (x : Indexer) : Job → Indexer
  | .accept v => { x with queues := x.queues.accept v }
  | .batch limit shard => x.step analyzers limit shard

end Indexer

namespace Relay

variable {r : Relay} {x : Indexer}

theorem Carries.exists_does (h : r.Carries x) (analyzers : Analyzers) (threshold : Nat)
    (job : Indexer.Job) : ∃ ticks,
      (r.run analyzers threshold ticks).Carries (x.does analyzers job) := by
  cases job with
  | accept v => exact ⟨_, h.accept v⟩
  | batch limit shard =>
    by_cases hlt : shard < r.lanes.length
    · exact ⟨_, h.step limit hlt .whole⟩
    · have hnil : (x.queues.waiting.getD shard []).take limit = [] := by
        rw [← h.lane_waiting, lane_of_length_le (Nat.le_of_not_lt hlt)]
        exact List.take_nil
      refine ⟨[], ?_⟩
      rw [Indexer.does, Indexer.step_of_batch_nil hnil]
      exact h

theorem Carries.exists_run (h : r.Carries x) (analyzers : Analyzers) (threshold : Nat)
    (jobs : List Indexer.Job) : ∃ ticks,
      (r.run analyzers threshold ticks).Carries (jobs.foldl (Indexer.does analyzers) x) := by
  induction jobs generalizing r x with
  | nil => exact ⟨[], h⟩
  | cons job rest ih =>
    obtain ⟨ticks, hjob⟩ := h.exists_does analyzers threshold job
    obtain ⟨more, hrest⟩ := ih hjob
    refine ⟨ticks ++ more, ?_⟩
    rw [run_append]
    exact hrest

theorem exists_carries (analyzers : Analyzers) (threshold shards : Nat) (jobs : List Indexer.Job) :
    ∃ ticks, ((new (.new shards) shards).run analyzers threshold ticks).Carries
      (jobs.foldl (Indexer.does analyzers) (.new shards)) :=
  (carries_new shards).exists_run analyzers threshold jobs

end Relay

end Corpus
