import Corpus.Proofs.Catalog
import Corpus.Proofs.Queue.Change
import Corpus.Queue.Indexer

/-! The indexer event by event.  Every event waits where the index of its table will look for the
records that it is about. -/

namespace Corpus

open Segment

theorem Catalog.schemaOf_follow (c : Catalog) (shard : Nat)
    (change : Event × Option (Except Error Document)) :
    (Indexer.follow shard c change).schemaOf = c.schemaOf := by
  funext e
  rw [schemaOf, schemaOf, Indexer.follow, get?_alter]
  split
  next h =>
    rw [h]
    cases c.tables.get? change.1.epoch <;> rfl
  next => rfl

namespace Queues

variable {q : Queues}

def accept (q : Queues) (v : Event) : Queues := (q.targets v).foldl (fun q i => q.push i v) q

def acceptAll (q : Queues) (t : Table) (changes : List Change) : Queues :=
  changes.foldl (fun q c => q.accept ⟨t.name, t.epoch, c⟩) q

theorem foldl_push (v : Event) {shards : List Nat} (hn : shards.Nodup) (q : Queues) :
    let r := shards.foldl (fun q i => q.push i v) q
    (∀ i, r.waiting[i]? = q.waiting[i]?.map fun events =>
      if i ∈ shards then events ++ [v] else events) ∧ r.shards = q.shards ∧ r.closed = q.closed := by
  induction shards generalizing q with
  | nil => simp
  | cons j rest ih =>
    obtain ⟨hw, hs, hc⟩ := ih hn.of_cons (q.push j v)
    refine ⟨fun i => ?_, hs.trans (List.length_modify ..), hc⟩
    have hp : (q.push j v).waiting[i]? =
        q.waiting[i]?.map fun events => if j = i then events ++ [v] else events :=
      List.getElem?_modify ..
    rw [List.foldl_cons, hw, hp, Option.map_map]
    congr 1
    funext events
    by_cases hi : j = i
    · subst hi
      have hj : j ∉ rest := (List.nodup_cons.1 hn).1
      simp [hj]
    · simp [hi, Ne.symm hi]

theorem nodup_targets (q : Queues) (v : Event) : (q.targets v).Nodup :=
  v.change.nodup_targets v.table q.shards

theorem getElem?_accept (q : Queues) (v : Event) (i : Nat) :
    (q.accept v).waiting[i]? = q.waiting[i]?.map fun events =>
      if i ∈ q.targets v then events ++ [v] else events :=
  (foldl_push v (q.nodup_targets v) q).1 i

theorem mem_accept {v w : Event} {i : Nat} {events : List Event}
    (hi : (q.accept v).waiting[i]? = some events) (hw : w ∈ events) :
    (∃ old, q.waiting[i]? = some old ∧ w ∈ old) ∨ w = v ∧ i ∈ q.targets v := by
  rw [getElem?_accept] at hi
  obtain ⟨old, ho, rfl⟩ := Option.map_eq_some_iff.1 hi
  split at hw
  next hm =>
    cases List.mem_append.1 hw with
    | inl hw => exact .inl ⟨old, ho, hw⟩
    | inr hw => exact .inr ⟨List.mem_singleton.1 hw, hm⟩
  next => exact .inl ⟨old, ho, hw⟩

theorem shards_accept (q : Queues) (v : Event) : (q.accept v).shards = q.shards :=
  (foldl_push v (q.nodup_targets v) q).2.1

theorem closed_accept (q : Queues) (v : Event) : (q.accept v).closed = q.closed :=
  (foldl_push v (q.nodup_targets v) q).2.2

theorem sendAll_eq (h : q.closed = false) (t : Table) (changes : List Change) :
    q.sendAll t changes = .ok (q.acceptAll t changes) := by
  induction changes generalizing q with
  | nil => rfl
  | cons c rest ih =>
    have hs : q.send ⟨t.name, t.epoch, c⟩ = .ok (q.accept ⟨t.name, t.epoch, c⟩) := by
      rw [send, h]
      rfl
    rw [sendAll, List.foldlM_cons, hs]
    exact ih ((q.closed_accept _).trans h)

theorem getElem?_waiting {shard : Nat} {v : Event} {rest : List Event}
    (h : q.waiting.getD shard [] = v :: rest) : q.waiting[shard]? = some (v :: rest) := by
  rw [List.getD_eq_getElem?_getD] at h
  cases hw : q.waiting[shard]? with
  | none => rw [hw] at h; cases h
  | some events => rw [hw] at h; exact congrArg some h

end Queues

namespace Indexer

structure Sound (x : Indexer) : Prop where
  catalog : x.catalog.Sound
  shards : x.queues.shards = x.catalog.shardCount
  closed : x.queues.closed = false
  named : ∀ {i : Nat} {events : List Event}, x.queues.waiting[i]? = some events → ∀ v ∈ events,
    ∃ t, x.catalog.tables.get? v.epoch = some t ∧ t.name = v.table
  placed : ∀ {i : Nat} {events : List Event}, x.queues.waiting[i]? = some events → ∀ v ∈ events,
    ∀ id, v.change.id? = some id → shardOf v.table id x.queues.shards = i

variable {x : Indexer} {analyzers : Analyzers} {shard : Nat}

theorem Sound.new (shards : Nat) : (Indexer.new shards).Sound where
  catalog := .new shards
  shards := List.length_replicate
  closed := rfl
  named hi v hv := by
    rw [List.eq_of_mem_replicate (List.mem_of_getElem? hi)] at hv
    cases hv
  placed hi v hv := by
    rw [List.eq_of_mem_replicate (List.mem_of_getElem? hi)] at hv
    cases hv

theorem Sound.setCatalog (h : x.Sound) {c : Catalog} (hc : c.Sound) (hl : x.catalog.Later c)
    (hn : c.shardCount = x.catalog.shardCount) : Sound { x with catalog := c } where
  catalog := hc
  shards := h.shards.trans hn.symm
  closed := h.closed
  named hi v hv := by
    obtain ⟨t, ht, hname⟩ := h.named hi v hv
    obtain ⟨u, hu, htu⟩ := hl _ t ht
    exact ⟨u, hu, htu.name.trans hname⟩
  placed := h.placed

theorem Sound.accept (h : x.Sound) {v : Event} {t : Table}
    (ht : x.catalog.tables.get? v.epoch = some t) (hn : t.name = v.table) :
    Sound { x with queues := x.queues.accept v } where
  catalog := h.catalog
  shards := (x.queues.shards_accept v).trans h.shards
  closed := (x.queues.closed_accept v).trans h.closed
  named hi w hw := by
    cases Queues.mem_accept hi hw with
    | inl hold =>
      obtain ⟨events, ho, hm⟩ := hold
      exact h.named ho w hm
    | inr hnew =>
      obtain ⟨rfl, -⟩ := hnew
      exact ⟨t, ht, hn⟩
  placed hi w hw id hid := by
    rw [Queues.shards_accept]
    cases Queues.mem_accept hi hw with
    | inl hold =>
      obtain ⟨events, ho, hm⟩ := hold
      exact h.placed ho w hm id hid
    | inr hnew =>
      obtain ⟨rfl, hm⟩ := hnew
      rw [Queues.targets, Change.targets, hid] at hm
      exact (List.mem_singleton.1 hm).symm

theorem Sound.acceptAll (h : x.Sound) {t : Table} (ht : x.catalog.tables.get? t.epoch = some t)
    (changes : List Change) : Sound { x with queues := x.queues.acceptAll t changes } := by
  induction changes generalizing x with
  | nil => exact h
  | cons c rest ih => exact ih (h.accept (v := ⟨t.name, t.epoch, c⟩) ht rfl) ht

theorem step_of_batch_nil {limit : Nat} (h : (x.queues.waiting.getD shard []).take limit = []) :
    x.step analyzers limit shard = x := by
  have hw : x.queues.waiting.modify shard (·.drop 0) = x.queues.waiting := List.modify_id ..
  have hb : x.queues.barrier.complete shard 0 = x.queues.barrier := by
    rw [Barrier.complete, show (· + 0 : Nat → Nat) = id from rfl, List.modify_id]
  rw [step, h]
  simp only [List.length_nil, hw, hb]
  rfl

theorem step_of_nil (h : x.queues.waiting.getD shard [] = []) (limit : Nat) :
    x.step analyzers limit shard = x :=
  step_of_batch_nil (by rw [h, List.take_nil])

theorem step_zero (x : Indexer) (shard : Nat) : x.step analyzers 0 shard = x :=
  step_of_batch_nil List.take_zero

theorem step_one (analyzers : Analyzers) {v : Event} {rest : List Event}
    (h : x.queues.waiting[shard]? = some (v :: rest)) :
    x.step analyzers 1 shard =
      { catalog := follow shard x.catalog (v, v.change.analyze (x.schemaOf v.epoch) analyzers)
        queues := { x.queues with
          waiting := x.queues.waiting.modify shard (·.drop 1)
          barrier := x.queues.barrier.complete shard 1
          processed := x.queues.processed + 1
          failed := x.queues.failed +
            [v.change.analyze (x.schemaOf v.epoch) analyzers].countP isFailure } } := by
  rw [step, List.getD_eq_getElem?_getD, h]
  rfl

theorem getD_waiting_step_one (analyzers : Analyzers) {v : Event} {rest : List Event}
    (h : x.queues.waiting[shard]? = some (v :: rest)) :
    (x.step analyzers 1 shard).queues.waiting.getD shard [] = rest := by
  rw [step_one analyzers h, List.getD_eq_getElem?_getD, List.getElem?_modify, h]
  simp

theorem schemaOf_step_one {v : Event} {rest : List Event}
    (h : x.queues.waiting[shard]? = some (v :: rest)) :
    (x.step analyzers 1 shard).schemaOf = x.schemaOf := by
  rw [step_one analyzers h]
  exact x.catalog.schemaOf_follow shard _

theorem step_succ (x : Indexer) (limit shard : Nat) :
    x.step analyzers (limit + 1) shard =
      (x.step analyzers 1 shard).step analyzers limit shard := by
  cases hw : x.queues.waiting.getD shard [] with
  | nil => rw [step_of_nil hw, step_of_nil hw, step_of_nil hw]
  | cons v rest =>
    have h := Queues.getElem?_waiting hw
    have hrest := getD_waiting_step_one analyzers h
    have hbatch : (x.queues.waiting.getD shard []).take (limit + 1) = v :: rest.take limit := by
      rw [hw, List.take_succ_cons]
    rw [step_one analyzers h] at hrest ⊢
    rw [step, step, hbatch, hrest]
    generalize rest.take limit = batch
    have hschema (q : Queues) :
        schemaOf ⟨follow shard x.catalog (v, v.change.analyze (x.schemaOf v.epoch) analyzers), q⟩ =
          x.schemaOf :=
      x.catalog.schemaOf_follow shard _
    have hdrop : (fun l : List Event => l.drop batch.length) ∘ (fun l : List Event => l.drop 1) =
        fun l : List Event => l.drop (batch.length + 1) := by
      funext events
      rw [Function.comp_apply, List.drop_drop, Nat.add_comm]
    have hadd : (fun n => n + batch.length) ∘ (fun n => n + 1) =
        fun n => n + (batch.length + 1) := by
      funext n
      rw [Function.comp_apply, Nat.add_assoc, Nat.add_comm 1]
    simp only [hschema, Barrier.complete, List.modify_modify_eq, hdrop, hadd, List.length_cons,
      Event.analyzeAll, List.map_cons, List.zip_cons_cons, List.foldl_cons, List.countP_cons,
      List.countP_nil]
    congr 2
    · omega
    · omega

theorem follow_eq (shard : Nat) (c : Catalog) (v : Event) (schema : Schema) :
    follow shard c (v, v.change.analyze schema analyzers) =
      c.alter v.epoch fun t =>
        { t with shards := t.shards.update shard (v.change.edit schema analyzers).apply } := by
  rw [follow]
  congr 1
  funext t
  rw [funext (v.change.apply_analyze)]

section

variable {v : Event} {rest : List Event}

theorem Sound.placed_edit (h : x.Sound) (hw : x.queues.waiting[shard]? = some (v :: rest))
    {t : Table} (ht : x.catalog.tables.get? v.epoch = some t) {schema : Schema} {d : Document}
    (hd : v.change.edit schema analyzers = .upsert d) :
    Fields.OnePath d.fields ∧ shardOf t.name d.id t.shards.length = shard := by
  obtain ⟨hid, hone⟩ := Change.of_edit_eq_upsert hd
  obtain ⟨t', ht', hn⟩ := h.named hw v (.head _)
  rw [ht] at ht'
  cases ht'
  rw [hn, (h.catalog.shards ht).1, ← h.shards]
  exact ⟨hone, h.placed hw v (.head _) d.id hid⟩

theorem Sound.step_one (h : x.Sound) (hw : x.queues.waiting[shard]? = some (v :: rest)) :
    (x.step analyzers 1 shard).Sound ∧ x.catalog.Later (x.step analyzers 1 shard).catalog := by
  rw [Indexer.step_one analyzers hw, follow_eq]
  generalize x.schemaOf v.epoch = schema
  have hlater : x.catalog.Later (x.catalog.alter v.epoch fun t =>
      { t with shards := t.shards.update shard (v.change.edit schema analyzers).apply }) := by
    refine .alter _ _ fun t ht => ?_
    by_cases hlt : shard < t.shards.length
    · have hg := t.shards.generation_update hlt (v.change.edit schema analyzers)
      exact ⟨rfl, Nat.le_refl _, hg ▸ Nat.le_succ _, fun _ => rfl,
        fun he => absurd (hg.symm.trans he) (Nat.succ_ne_self _)⟩
    · rw [Shards.update_of_length_le _ (Nat.le_of_not_lt hlt)]
      exact .refl t
  have hsound : (x.catalog.alter v.epoch fun t =>
      { t with shards := t.shards.update shard (v.change.edit schema analyzers).apply }).Sound := by
    refine h.catalog.alter _ fun t ht => ⟨rfl, rfl, rfl, Shards.length_update .., ?_⟩
    exact (h.catalog.shards ht).2.update fun d hd => h.placed_edit hw ht hd
  have hold {i : Nat} {events : List Event}
      (hi : (x.queues.waiting.modify shard (·.drop 1))[i]? = some events) :
      ∃ old, x.queues.waiting[i]? = some old ∧ ∀ w ∈ events, w ∈ old := by
    rw [List.getElem?_modify] at hi
    obtain ⟨old, ho, rfl⟩ := Option.map_eq_some_iff.1 hi
    refine ⟨old, ho, fun w hw => ?_⟩
    split at hw
    next => exact List.mem_of_mem_drop hw
    next => exact hw
  have hlen : (x.queues.waiting.modify shard (·.drop 1)).length = x.queues.waiting.length :=
    List.length_modify ..
  refine ⟨⟨hsound, hlen.trans h.shards, h.closed, fun hi w hw => ?_,
    fun hi w hw id hid => ?_⟩, hlater⟩
  · obtain ⟨old, ho, hm⟩ := hold hi
    obtain ⟨t, ht, hn⟩ := h.named ho w (hm w hw)
    obtain ⟨u, hu, htu⟩ := hlater _ t ht
    exact ⟨u, hu, htu.name.trans hn⟩
  · obtain ⟨old, ho, hm⟩ := hold hi
    exact (congrArg _ hlen).trans (h.placed ho w (hm w hw) id hid)

end

end Indexer

end Corpus
