import Corpus.Proofs.Queue.Relay

/-! Waiting at the barrier.  Only counts are compared, but the queue of a shard is first in first out, so
that the counts tell which events were followed. -/

namespace Corpus

theorem Barrier.pending_eq_zero_iff (b : Barrier) :
    b.pending = 0 ↔ ∀ i target done : Nat, b.registered[i]? = some target →
      b.completed[i]? = some done → target ≤ done := by
  rw [← reached_iff, pending, remaining, reached, total_eq_sum]
  generalize b.registered = targets
  generalize b.completed = counts
  induction targets generalizing counts with
  | nil => simp
  | cons target rest ih =>
    cases counts with
    | nil => simp
    | cons done counts =>
      simp only [List.zipWith_cons_cons, List.sum_cons, List.all_cons, id_eq, Bool.and_eq_true,
        decide_eq_true_eq, ← ih, Nat.add_eq_zero_iff, Nat.sub_eq_zero_iff_le]

namespace Relay

variable {analyzers : Analyzers} {threshold : Nat} {r : Relay} {c : Catalog}

theorem wait_iff_returned (analyzers : Analyzers) (threshold : Nat) (r : Relay) (milliseconds : Nat) :
    r.barrier.wait milliseconds = .ok () ↔
      ((r.tick analyzers threshold .call).tick analyzers threshold (.look r.waiters.length)).returned
        r.waiters.length := by
  have hlook : ((r.tick analyzers threshold .call).tick analyzers threshold
      (.look r.waiters.length)).returned r.waiters.length =
        r.barrier.reached r.barrier.registered := by
    simp [returned, tick]
  rw [hlook, Barrier.wait]
  split
  next h => simp [h]
  next h => simp [h]

theorem targets_tick (t : Tick) {k : Nat} {w : Waiter} (h : r.waiters[k]? = some w) :
    ∃ w', (r.tick analyzers threshold t).waiters[k]? = some w' ∧ w'.targets = w.targets := by
  cases t with
  | call =>
    have hk : k < r.waiters.length := (List.getElem?_eq_some_iff.1 h).1
    exact ⟨w, (List.getElem?_append_left hk).trans h, rfl⟩
  | look k' =>
    refine ⟨_, (List.getElem?_modify ..).trans (congrArg (Option.map _) h), ?_⟩
    dsimp only
    split <;> rfl
  | announce _ _ | enqueue _ _ | take _ _ _ | follow _ | report _ => exact ⟨w, h, rfl⟩

theorem targets_run (analyzers : Analyzers) (threshold : Nat) (ticks : List Tick) {k : Nat} {w : Waiter}
    (h : r.waiters[k]? = some w) :
    ∃ w', (r.run analyzers threshold ticks).waiters[k]? = some w' ∧ w'.targets = w.targets := by
  induction ticks generalizing r w with
  | nil => exact ⟨w, h, rfl⟩
  | cons t rest ih =>
    obtain ⟨w', hw', ht⟩ := targets_tick t h
    obtain ⟨w'', hw'', ht'⟩ := ih hw'
    exact ⟨w'', hw'', ht'.trans ht⟩

theorem returned_look {k : Nat} {w : Waiter} (h : r.waiters[k]? = some w)
    (hr : r.barrier.reached w.targets) : (r.tick analyzers threshold (.look k)).returned k := by
  rw [returned, tick, List.getElem?_modify, h]
  simp [hr]

theorem entered_prefix_applied {l l' : Lane} (h : l.entered <+: l'.entered)
    (hc : l.counted ≤ l'.reported.length) : l.entered <+: l'.applied := by
  have hle : l.entered.length ≤ l'.reported.length := Nat.le_trans (Nat.le_add_left ..) hc
  -- events are reported in the order of the queue
  have hreported := l'.reported_prefix_applied.trans l'.applied_prefix_entered
  exact (List.prefix_of_prefix_length_le h hreported hle).trans l'.reported_prefix_applied

theorem Sound.counted_le_of_reached {r' : Relay} (h : r.Sound analyzers c) (h' : r'.Sound analyzers c)
    (hlen : r'.lanes.length = r.lanes.length) (hr : r'.barrier.reached r.barrier.registered) (i : Nat) :
    (r.lane i).counted ≤ (r'.lane i).reported.length := by
  rw [Barrier.reached_iff] at hr
  obtain hl | hl := r.lane_cases i
  · rw [hl]
    exact Nat.zero_le _
  · have hl' : r'.lanes[i]? = some (r'.lane i) :=
      getElem?_lane (hlen ▸ (List.getElem?_eq_some_iff.1 hl).1)
    exact hr i _ _ ((h.registered i).trans (congrArg _ hl)) ((h'.completed i).trans (congrArg _ hl'))

theorem length_lanes_tick (analyzers : Analyzers) (threshold : Nat) (r : Relay) (t : Tick) :
    (r.tick analyzers threshold t).lanes.length = r.lanes.length := by
  cases t with
  | call | look _ => rfl
  | announce _ _ | enqueue _ _ | take _ _ _ | follow _ | report _ => exact List.length_modify ..

theorem length_lanes_run (analyzers : Analyzers) (threshold : Nat) (ticks : List Tick) (r : Relay) :
    (r.run analyzers threshold ticks).lanes.length = r.lanes.length := by
  induction ticks generalizing r with
  | nil => rfl
  | cons t rest ih => exact (ih _).trans (r.length_lanes_tick analyzers threshold t)

theorem Sound.pending_eq_zero_iff (h : r.Sound analyzers c) :
    r.barrier.pending = 0 ↔ ∀ i, (r.lane i).Idle := by
  rw [Barrier.pending_eq_zero_iff]
  constructor
  · intro hp i
    rw [Lane.idle_iff]
    obtain hl | hl := r.lane_cases i
    · rw [hl]
      exact Nat.le_refl _
    · exact hp i _ _ ((h.registered i).trans (congrArg _ hl)) ((h.completed i).trans (congrArg _ hl))
  · intro hi i target done ht hd
    rw [h.registered] at ht
    rw [h.completed] at hd
    obtain ⟨l, hl, rfl⟩ := Option.map_eq_some_iff.1 ht
    obtain ⟨l', hl', rfl⟩ := Option.map_eq_some_iff.1 hd
    cases hl.symm.trans hl'
    have hidle := hi i
    rw [lane_eq hl, Lane.idle_iff] at hidle
    exact hidle

/-- A waiter returns once all is followed that was in a queue when it called. -/
theorem wait_exact (analyzers : Analyzers) (threshold : Nat) (c : Catalog) (shards : Nat)
    (before after : List Tick) :
    let r := (new c shards).run analyzers threshold before
    let r' := (r.tick analyzers threshold .call).run analyzers threshold after
    let waiter := r.waiters.length
    c.Advanced analyzers (fun i => (r'.lane i).applied) r'.catalog ∧
      (r'.returned waiter → ∀ i, (r.lane i).entered <+: (r'.lane i).applied) ∧
      ((∀ i, r.barrier.registered.getD i 0 ≤ r'.barrier.completed.getD i 0) →
        (r'.tick analyzers threshold (.look waiter)).returned waiter) ∧
      (∀ i, r'.barrier.completed.getD i 0 ≤ r'.barrier.registered.getD i 0) ∧
      (r'.barrier.pending = 0 ↔ ∀ i, (r'.lane i).Idle) := by
  intro r r' waiter
  have hr : r.Sound analyzers c := (Sound.new analyzers c shards).run threshold before
  have hr' : r'.Sound analyzers c := (hr.tick threshold .call).run threshold after
  have hlen : r'.lanes.length = r.lanes.length := length_lanes_run ..
  have hcall : (r.tick analyzers threshold .call).waiters[waiter]? =
      some ⟨r.barrier.registered, false⟩ := List.getElem?_concat_length
  obtain ⟨w, hw, htargets⟩ := targets_run analyzers threshold after hcall
  refine ⟨hr'.advanced, fun hret i => ?_, fun hdone => ?_, fun i => ?_, hr'.pending_eq_zero_iff⟩
  · rw [returned, hw] at hret
    have hreached := hr'.returned w (List.mem_of_getElem? hw) hret
    rw [htargets] at hreached
    have hentered : (r.lane i).entered <+: (r'.lane i).entered :=
      ((r.lane_tick analyzers threshold .call i).extends_entered).trans (entered_prefix_run ..)
    exact entered_prefix_applied hentered (hr.counted_le_of_reached hr' hlen hreached i)
  · refine returned_look hw ?_
    rw [Barrier.reached_iff, htargets]
    intro i target done ht hd
    have hle := hdone i
    rwa [List.getD_eq_getElem?_getD, List.getD_eq_getElem?_getD, ht, hd] at hle
  · rw [hr'.getD_completed, hr'.getD_registered]
    exact Lane.length_reported_le _

end Relay

end Corpus
