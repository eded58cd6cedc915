import Corpus.Proofs.Queue.Advance

/-! What one step of a relay does to a lane, to the counts of the barrier and to the catalog, and what holds
after all steps. -/

namespace Corpus

namespace Event

theorem analyzeDivided_eq (schemaOf : Nat → Schema) (analyzers : Analyzers) (division : Division)
    (events : List Event) :
    analyzeDivided schemaOf analyzers division events = analyzeAll schemaOf analyzers events := by
  induction division generalizing events with
  | whole => rfl
  | halves left right ihl ihr =>
    rw [analyzeDivided, ihl, ihr, analyzeAll, analyzeAll, ← List.map_append, List.take_append_drop]
    rfl

@[simp] theorem analyzeBatch_eq (threshold : Nat) (schemaOf : Nat → Schema) (analyzers : Analyzers)
    (division : Division) :
    analyzeBatch threshold schemaOf analyzers division = analyzeAll schemaOf analyzers := by
  funext events
  rw [analyzeBatch, analyzeDivided_eq, ite_self]

end Event

namespace Lane

def counted (l : Lane) : Nat := l.announced.length + l.entered.length

inductive Step (schemaOf : Nat → Schema) (analyzers : Analyzers) (l : Lane) : Lane → Prop
  | stay : Step schemaOf analyzers l l
  | announce (v : Event) : Step schemaOf analyzers l (l.announce v)
  | enqueue (k : Nat) : Step schemaOf analyzers l (l.enqueue k)
  | take (limit : Nat) :
    Step schemaOf analyzers l (l.take (Event.analyzeAll schemaOf analyzers) limit)
  | follow : Step schemaOf analyzers l l.follow
  | report : Step schemaOf analyzers l l.report

variable {l l' : Lane} {schemaOf : Nat → Schema} {analyzers : Analyzers}

theorem entered_enqueue (k : Nat) (l : Lane) :
    (l.enqueue k).entered = l.entered ++ l.announced[k]?.toList := by
  rw [enqueue]
  cases l.announced[k]? <;> simp [entered, applied]

theorem announced_enqueue (k : Nat) (l : Lane) :
    (l.enqueue k).announced = l.announced.eraseIdx k := by
  rw [enqueue]
  cases h : l.announced[k]? with
  | none => exact (List.eraseIdx_of_length_le (List.getElem?_eq_none_iff.1 h)).symm
  | some v => rfl

theorem counted_announce (v : Event) (l : Lane) : (l.announce v).counted = l.counted + 1 := by
  simp only [counted, announce, entered, applied, List.length_append, List.length_singleton]
  omega

theorem counted_enqueue (k : Nat) (l : Lane) : (l.enqueue k).counted = l.counted := by
  rw [counted, entered_enqueue, enqueue]
  cases h : l.announced[k]? with
  | none => simp [counted]
  | some v =>
    have hk : k < l.announced.length := (List.getElem?_eq_some_iff.1 h).1
    simp only [List.length_eraseIdx, if_pos hk, Option.toList_some, List.length_append,
      List.length_singleton, counted]
    omega

theorem applied_enqueue (k : Nat) (l : Lane) : (l.enqueue k).applied = l.applied := by
  rw [enqueue]
  split <;> rfl

theorem reported_enqueue (k : Nat) (l : Lane) : (l.enqueue k).reported = l.reported := by
  rw [enqueue]
  split <;> rfl

theorem held_enqueue (k : Nat) (l : Lane) : (l.enqueue k).held = l.held := by
  rw [enqueue]
  split <;> rfl

theorem take_eq (limit : Nat) (l : Lane) :
    l.take (Event.analyzeAll schemaOf analyzers) limit =
      if l.held = [] ∧ l.followed = [] then
        { l with
          waiting := l.waiting.drop limit
          held := (l.waiting.take limit).map fun v =>
            (v, v.change.analyze (schemaOf v.epoch) analyzers) }
      else l := by
  rw [take, Event.zip_analyzeAll]

theorem entered_take (schemaOf : Nat → Schema) (analyzers : Analyzers) (limit : Nat) (l : Lane) :
    (l.take (Event.analyzeAll schemaOf analyzers) limit).entered = l.entered := by
  rw [take_eq]
  split
  next h => simp [entered, applied, h.1, Function.comp_def]
  next => rfl

theorem applied_take (analyze : List Event → List (Option (Except Error Document))) (limit : Nat)
    (l : Lane) : (l.take analyze limit).applied = l.applied := by
  rw [take]
  split <;> rfl

theorem reported_take (analyze : List Event → List (Option (Except Error Document))) (limit : Nat)
    (l : Lane) : (l.take analyze limit).reported = l.reported := by
  rw [take]
  split <;> rfl

theorem announced_take (analyze : List Event → List (Option (Except Error Document))) (limit : Nat)
    (l : Lane) : (l.take analyze limit).announced = l.announced := by
  rw [take]
  split <;> rfl

theorem applied_follow (l : Lane) :
    l.follow.applied = l.applied ++ (l.held.head?.map (·.1)).toList := by
  rw [follow]
  cases h : l.held <;> simp [applied]

theorem entered_follow (l : Lane) : l.follow.entered = l.entered := by
  rw [follow]
  split
  next => rfl
  next task rest h => simp [entered, applied, h]

theorem reported_follow (l : Lane) : l.follow.reported = l.reported := by
  rw [follow]
  split <;> rfl

theorem announced_follow (l : Lane) : l.follow.announced = l.announced := by
  rw [follow]
  split <;> rfl

theorem held_follow (l : Lane) : l.follow.held = l.held.tail := by
  rw [follow]
  cases h : l.held <;> simp [h]

theorem applied_report (l : Lane) : l.report.applied = l.applied := by
  rw [report]
  split
  next => simp [applied]
  next => rfl

theorem held_report (l : Lane) : l.report.held = l.held := by
  rw [report]
  split <;> rfl

theorem entered_report (l : Lane) : l.report.entered = l.entered := by
  have hw : l.report.waiting = l.waiting := by rw [report]; split <;> rfl
  rw [entered, entered, applied_report, held_report, hw]

theorem announced_report (l : Lane) : l.report.announced = l.announced := by
  rw [report]
  split <;> rfl

theorem reported_report (l : Lane) : l.report.reported = l.reported ++ l.finished := by
  rw [report, finished]
  split
  next => rfl
  next => exact (List.append_nil _).symm

theorem Step.extends_entered (h : l.Step schemaOf analyzers l') : l.entered <+: l'.entered := by
  cases h with
  | stay => exact List.prefix_rfl
  | announce v => exact List.prefix_rfl
  | enqueue k => exact entered_enqueue k l ▸ List.prefix_append ..
  | take limit => exact entered_take schemaOf analyzers limit l ▸ List.prefix_rfl
  | follow => exact l.entered_follow ▸ List.prefix_rfl
  | report => exact l.entered_report ▸ List.prefix_rfl

theorem reported_prefix_applied (l : Lane) : l.reported <+: l.applied := List.prefix_append ..

theorem applied_prefix_entered (l : Lane) : l.applied <+: l.entered :=
  (List.prefix_append ..).trans (List.prefix_append ..)

theorem length_reported_le (l : Lane) : l.reported.length ≤ l.counted :=
  Nat.le_trans (l.reported_prefix_applied.trans l.applied_prefix_entered).length_le
    (Nat.le_add_left ..)

theorem counted_take (limit : Nat) (l : Lane) :
    (l.take (Event.analyzeAll schemaOf analyzers) limit).counted = l.counted := by
  rw [counted, counted, announced_take, entered_take]

theorem counted_follow (l : Lane) : l.follow.counted = l.counted := by
  rw [counted, counted, announced_follow, entered_follow]

theorem counted_report (l : Lane) : l.report.counted = l.counted := by
  rw [counted, counted, announced_report, entered_report]

theorem idle_iff : l.Idle ↔ l.counted ≤ l.reported.length := by
  simp only [Idle, counted, entered, applied, List.length_append, List.length_map,
    ← List.length_eq_zero_iff]
  omega

end Lane

namespace Barrier

theorem reached_iff (b : Barrier) (targets : List Nat) :
    b.reached targets ↔ ∀ i target done : Nat, targets[i]? = some target → b.completed[i]? = some done →
      target ≤ done := by
  simp only [reached, List.all_eq_true, id_eq, List.mem_iff_getElem?, List.getElem?_zipWith]
  constructor
  · intro h i target done ht hd
    exact of_decide_eq_true (h _ ⟨i, by rw [ht, hd]⟩)
  · rintro h _ ⟨i, hi⟩
    cases ht : targets[i]? with
    | none => rw [ht] at hi; cases hi
    | some target =>
      cases hd : b.completed[i]? with
      | none => rw [ht, hd] at hi; cases hi
      | some done =>
        rw [ht, hd] at hi
        exact Option.some.inj hi ▸ decide_eq_true (h i target done ht hd)

theorem reached_complete {b : Barrier} {targets : List Nat} (h : b.reached targets)
    (shard events : Nat) : (b.complete shard events).reached targets := by
  rw [reached_iff] at h ⊢
  intro i target done ht hd
  rw [complete, List.getElem?_modify] at hd
  obtain ⟨before, hb, rfl⟩ := Option.map_eq_some_iff.1 hd
  have hle := h i target before ht hb
  split
  next => exact Nat.le_trans hle (Nat.le_add_right ..)
  next => exact hle

end Barrier

/-- What a writer does to send an event.  It goes on to the next shard, and the next event, only after it
has put this one into the queue. -/
def Event.sending (shards : Nat) (v : Event) : List Tick :=
  (v.change.targets v.table shards).flatMap fun i => [.announce i v, .enqueue i 0]

theorem getD_modify (l : List α) (i j : Nat) (f : α → α) (d : α) :
    (l.modify i f).getD j d = if i = j ∧ j < l.length then f (l.getD j d) else l.getD j d := by
  rw [List.getD_eq_getElem?_getD, List.getD_eq_getElem?_getD, List.getElem?_modify]
  by_cases hj : j < l.length
  · by_cases hi : i = j <;> simp [hi, hj]
  · simp [hj]

namespace Relay

variable {analyzers : Analyzers} {threshold : Nat} {r : Relay}

theorem lane_eq {shard : Nat} {l : Lane} (h : r.lanes[shard]? = some l) : r.lane shard = l := by
  rw [lane, List.getD_eq_getElem?_getD, h]
  rfl

theorem lane_of_length_le {shard : Nat} (h : r.lanes.length ≤ shard) : r.lane shard = .empty := by
  rw [lane, List.getD_eq_getElem?_getD, List.getElem?_eq_none h]
  rfl

theorem getElem?_lane {shard : Nat} (h : shard < r.lanes.length) :
    r.lanes[shard]? = some (r.lane shard) := by
  rw [List.getElem?_eq_getElem h, lane_eq (List.getElem?_eq_getElem h)]

theorem lane_cases (r : Relay) (shard : Nat) :
    r.lane shard = .empty ∨ r.lanes[shard]? = some (r.lane shard) := by
  by_cases h : shard < r.lanes.length
  · exact .inr (getElem?_lane h)
  · exact .inl (lane_of_length_le (Nat.le_of_not_lt h))

theorem lane_of_modify {r' : Relay} {shard : Nat} {f : Lane → Lane}
    (h : r'.lanes = r.lanes.modify shard f) (i : Nat) :
    r'.lane i = if shard = i ∧ i < r.lanes.length then f (r.lane i) else r.lane i := by
  rw [lane, h]
  exact getD_modify ..

theorem step_of_modify {r' : Relay} {schemaOf : Nat → Schema} {shard : Nat} {f : Lane → Lane}
    (h : r'.lanes = r.lanes.modify shard f) (hf : ∀ l, Lane.Step schemaOf analyzers l (f l)) (i : Nat) :
    (r.lane i).Step schemaOf analyzers (r'.lane i) := by
  rw [lane_of_modify h]
  split
  next => exact hf _
  next => exact .stay

theorem lane_tick (analyzers : Analyzers) (threshold : Nat) (r : Relay) (t : Tick) (i : Nat) :
    (r.lane i).Step r.catalog.schemaOf analyzers ((r.tick analyzers threshold t).lane i) := by
  cases t with
  | announce shard v => exact step_of_modify rfl (fun _ => .announce v) i
  | enqueue shard k => exact step_of_modify rfl (fun _ => .enqueue k) i
  | take shard limit division =>
    refine step_of_modify rfl (fun _ => ?_) i
    rw [Event.analyzeBatch_eq]
    exact .take limit
  | follow shard => exact step_of_modify rfl (fun _ => .follow) i
  | report shard => exact step_of_modify rfl (fun _ => .report) i
  | call => exact .stay
  | look k => exact .stay

/-- What holds after all steps from a relay with the catalog `c` and nothing announced. -/
structure Sound (analyzers : Analyzers) (c : Catalog) (r : Relay) : Prop where
  registered : ∀ i : Nat, r.barrier.registered[i]? = r.lanes[i]?.map (·.counted)
  completed : ∀ i : Nat, r.barrier.completed[i]? = r.lanes[i]?.map (·.reported.length)
  analyzed : ∀ i, ∀ task ∈ (r.lane i).held,
    task.2 = task.1.change.analyze (c.schemaOf task.1.epoch) analyzers
  advanced : c.Advanced analyzers (fun i => (r.lane i).applied) r.catalog
  returned : ∀ w ∈ r.waiters, w.returned → r.barrier.reached w.targets

variable {c : Catalog}

theorem lane_new (c : Catalog) (shards i : Nat) : (new c shards).lane i = .empty := by
  rw [lane, new, List.getD_eq_getElem?_getD, List.getElem?_replicate]
  split <;> rfl

theorem Sound.new (analyzers : Analyzers) (c : Catalog) (shards : Nat) :
    (Relay.new c shards).Sound analyzers c where
  registered i := by
    rw [Relay.new, Barrier.new, List.getElem?_replicate, List.getElem?_replicate]
    split <;> rfl
  completed i := by
    rw [Relay.new, Barrier.new, List.getElem?_replicate, List.getElem?_replicate]
    split <;> rfl
  analyzed i task ht := by
    rw [lane_new] at ht
    cases ht
  advanced := (Catalog.Advanced.refl analyzers c).congr fun i => by rw [lane_new]; rfl
  returned w hw := by cases hw

theorem getElem?_counts_modify {lanes : List Lane} {counts : List Nat} {count : Lane → Nat}
    (h : ∀ i : Nat, counts[i]? = lanes[i]?.map count) {shard n : Nat} {f : Lane → Lane}
    (hf : ∀ l, lanes[shard]? = some l → count (f l) = count l + n) (i : Nat) :
    (counts.modify shard (· + n))[i]? = (lanes.modify shard f)[i]?.map count := by
  rw [List.getElem?_modify, List.getElem?_modify, h]
  cases hl : lanes[i]? with
  | none => rfl
  | some l =>
    by_cases hi : shard = i
    · subst hi
      simp [hf l hl]
    · simp [hi]

theorem getElem?_counts_modify_of_eq {lanes : List Lane} {counts : List Nat} {count : Lane → Nat}
    (h : ∀ i : Nat, counts[i]? = lanes[i]?.map count) {f : Lane → Lane}
    (hf : ∀ l, count (f l) = count l) (shard i : Nat) :
    counts[i]? = (lanes.modify shard f)[i]?.map count := by
  rw [← getElem?_counts_modify h (n := 0) fun l _ => hf l]
  exact congrArg (·[i]?) (List.modify_id ..).symm

theorem Sound.of_modify (h : r.Sound analyzers c) {r' : Relay} {shard : Nat} {f : Lane → Lane}
    (hl : r'.lanes = r.lanes.modify shard f) (hc : r'.catalog = r.catalog)
    (hw : r'.waiters = r.waiters)
    (hregistered : ∀ i : Nat, r'.barrier.registered[i]? = r'.lanes[i]?.map (·.counted))
    (hcompleted : ∀ i : Nat, r'.barrier.completed[i]? = r'.lanes[i]?.map (·.reported.length))
    (hanalyzed : ∀ l, ∀ task ∈ (f l).held, task ∈ l.held ∨
      task.2 = task.1.change.analyze (c.schemaOf task.1.epoch) analyzers)
    (happlied : ∀ l, (f l).applied = l.applied)
    (hreached : ∀ targets, r.barrier.reached targets → r'.barrier.reached targets) :
    r'.Sound analyzers c where
  registered := hregistered
  completed := hcompleted
  analyzed i task ht := by
    rw [lane_of_modify hl] at ht
    split at ht
    next => exact (hanalyzed _ task ht).elim (h.analyzed i task) id
    next => exact h.analyzed i task ht
  advanced := by
    rw [hc]
    refine h.advanced.congr fun i => ?_
    rw [lane_of_modify hl]
    split
    next => exact (happlied _).symm
    next => rfl
  returned w hm hr := hreached _ (h.returned w (hw ▸ hm) hr)

theorem Sound.tick_follow (h : r.Sound analyzers c) (threshold shard : Nat) :
    (r.tick analyzers threshold (.follow shard)).Sound analyzers c where
  registered := getElem?_counts_modify_of_eq h.registered Lane.counted_follow shard
  completed := getElem?_counts_modify_of_eq h.completed
    (fun l => congrArg List.length l.reported_follow) shard
  analyzed i task ht := by
    rw [lane_of_modify rfl] at ht
    split at ht
    next => exact h.analyzed i task (List.mem_of_mem_tail (Lane.held_follow _ ▸ ht))
    next => exact h.analyzed i task ht
  advanced := by
    have hlane (i : Nat) : (r.tick analyzers threshold (.follow shard)).lane i = _ :=
      lane_of_modify rfl i
    simp only [hlane]
    rw [tick]
    cases hh : (r.lane shard).held.head? with
    | none =>
      refine h.advanced.congr fun i => ?_
      split
      next hi =>
        rw [Lane.applied_follow, ← hi.1, hh]
        exact (List.append_nil _).symm
      next => rfl
    | some task =>
      have hm : task ∈ (r.lane shard).held := List.mem_of_head? hh
      have hlt : shard < r.lanes.length := by
        refine Nat.lt_of_not_le fun hle => ?_
        rw [lane_of_length_le hle] at hm
        cases hm
      have hstep := h.advanced.follow shard task.1
      rw [← h.analyzed shard task hm] at hstep
      refine hstep.congr fun i => ?_
      by_cases hi : i = shard
      · subst hi
        simp [hlt, Lane.applied_follow, hh]
      · simp [hi, Ne.symm hi]
  returned := h.returned

theorem Sound.tick (h : r.Sound analyzers c) (threshold : Nat) (t : Tick) :
    (r.tick analyzers threshold t).Sound analyzers c := by
  cases t with
  | announce shard v =>
    exact h.of_modify rfl rfl rfl
      (getElem?_counts_modify h.registered fun l _ => l.counted_announce v)
      (getElem?_counts_modify_of_eq (f := (·.announce v)) h.completed (fun _ => rfl) shard)
      (fun _ _ => .inl) (fun _ => rfl) (fun _ => id)
  | enqueue shard k =>
    exact h.of_modify rfl rfl rfl
      (getElem?_counts_modify_of_eq h.registered (Lane.counted_enqueue k) shard)
      (getElem?_counts_modify_of_eq h.completed
        (fun l => congrArg List.length (l.reported_enqueue k)) shard)
      (fun l task ht => .inl (l.held_enqueue k ▸ ht)) (Lane.applied_enqueue k) (fun _ => id)
  | take shard limit division =>
    rw [Relay.tick, Event.analyzeBatch_eq]
    refine h.of_modify rfl rfl rfl
      (getElem?_counts_modify_of_eq h.registered (Lane.counted_take limit) shard)
      (getElem?_counts_modify_of_eq h.completed
        (fun l => congrArg List.length (l.reported_take _ limit)) shard)
      (fun l task ht => ?_) (Lane.applied_take _ limit) (fun _ => id)
    rw [Lane.take_eq, h.advanced.schemaOf] at ht
    split at ht
    next =>
      obtain ⟨v, -, rfl⟩ := List.mem_map.1 ht
      exact .inr rfl
    next => exact .inl ht
  | follow shard => exact h.tick_follow threshold shard
  | report shard =>
    refine h.of_modify rfl rfl rfl
      (getElem?_counts_modify_of_eq h.registered Lane.counted_report shard)
      (getElem?_counts_modify h.completed fun l hl => ?_)
      (fun l task ht => .inl (l.held_report ▸ ht)) Lane.applied_report
      (fun _ hr => Barrier.reached_complete hr ..)
    rw [lane_eq hl, Lane.reported_report, List.length_append]
  | call =>
    refine ⟨h.registered, h.completed, h.analyzed, h.advanced, fun w hw hr => ?_⟩
    cases List.mem_append.1 hw with
    | inl hw => exact h.returned w hw hr
    | inr hw =>
      rw [List.mem_singleton.1 hw] at hr
      cases hr
  | look k =>
    refine ⟨h.registered, h.completed, h.analyzed, h.advanced, fun w hw hr => ?_⟩
    obtain ⟨i, hi⟩ := List.mem_iff_getElem?.1 hw
    obtain ⟨old, ho, rfl⟩ := Option.map_eq_some_iff.1 ((List.getElem?_modify ..).symm.trans hi)
    have hold := h.returned old (List.mem_of_getElem? ho)
    by_cases hk : k = i
    · rw [if_pos hk] at hr ⊢
      exact (Bool.or_eq_true_iff.1 hr).elim hold id
    · rw [if_neg hk] at hr ⊢
      exact hold hr

theorem run_append (analyzers : Analyzers) (threshold : Nat) (r : Relay) (ticks more : List Tick) :
    r.run analyzers threshold (ticks ++ more) =
      (r.run analyzers threshold ticks).run analyzers threshold more :=
  List.foldl_append

theorem Sound.run (h : r.Sound analyzers c) (threshold : Nat) (ticks : List Tick) :
    (r.run analyzers threshold ticks).Sound analyzers c := by
  induction ticks generalizing r with
  | nil => exact h
  | cons t rest ih => exact ih (h.tick threshold t)

theorem entered_prefix_run (analyzers : Analyzers) (threshold : Nat) (ticks : List Tick) (r : Relay)
    (i : Nat) : (r.lane i).entered <+: ((r.run analyzers threshold ticks).lane i).entered := by
  induction ticks generalizing r with
  | nil => exact List.prefix_rfl
  | cons t rest ih => exact (r.lane_tick analyzers threshold t i).extends_entered.trans (ih _)

theorem Sound.getD_registered (h : r.Sound analyzers c) (i : Nat) :
    r.barrier.registered.getD i 0 = (r.lane i).counted := by
  rw [List.getD_eq_getElem?_getD, h.registered, lane, List.getD_eq_getElem?_getD]
  cases r.lanes[i]? <;> rfl

theorem Sound.getD_completed (h : r.Sound analyzers c) (i : Nat) :
    r.barrier.completed.getD i 0 = (r.lane i).reported.length := by
  rw [List.getD_eq_getElem?_getD, h.completed, lane, List.getD_eq_getElem?_getD]
  cases r.lanes[i]? <;> rfl

end Relay

end Corpus
