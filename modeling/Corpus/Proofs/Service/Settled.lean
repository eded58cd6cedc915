import Corpus.Proofs.Service.Agreement

/-! What the index of a table shows once it has followed the changes that wait.  It can be told beforehand,
since no event that the indexer follows changes it. -/

namespace Corpus

theorem Catalog.Sound.get?_alter {c : Catalog} (h : c.Sound) {name : String} {t : Table}
    (ht : c.get? name = some t) (e : Nat) (f : Table → Table) :
    (c.alter e f).get? name = some (if t.epoch = e then f t else t) := by
  obtain ⟨hcur, htab, -⟩ := h.get? ht
  show (c.current.get? (tableName name)).bind (c.alter e f).tables.get? = _
  rw [hcur, Option.bind_some, Catalog.get?_alter]
  split
  next he => rw [← he, htab]; rfl
  next => exact htab

namespace Service

variable {s s' s'' : Service}

/-- The document that an identity will have, if the schema stays. -/
def foreseen (s : Service) (t : Table) (id : String) : Option Document :=
  (s.pending t id).foldl (fun last c => (c.edit t.schema s.analyzers).leave id last)
    (t.shards.document? t.name id)

def Foresees (s s' : Service) : Prop :=
  ∀ name t, s.catalog.get? name = some t →
    ∃ t', s'.catalog.get? name = some t' ∧ t'.name = t.name ∧ t'.schema = t.schema ∧
      ∀ id, s'.foreseen t' id = s.foreseen t id

theorem Foresees.refl (s : Service) : s.Foresees s := fun _ _ ht => ⟨_, ht, rfl, rfl, fun _ => rfl⟩

theorem Foresees.trans (h : s.Foresees s') (h' : s'.Foresees s'') : s.Foresees s'' := by
  intro name t ht
  obtain ⟨t', ht', hname, hschema, hforeseen⟩ := h name t ht
  obtain ⟨t'', ht'', hname', hschema', hforeseen'⟩ := h' name t' ht'
  exact ⟨t'', ht'', hname'.trans hname, hschema'.trans hschema,
    fun id => (hforeseen' id).trans (hforeseen id)⟩

section

variable {shard : Nat} {v : Event} {rest : List Event} {t : Table}

theorem schema_followed (s : Service) (shard : Nat) (v : Event) (t : Table) :
    (s.followed shard v t).schema = t.schema := by
  rw [followed]
  split <;> rfl

theorem foreseen_step (hs : s.Sound) (hq : s.indexer.queues.waiting[shard]? = some (v :: rest))
    (ht : s.catalog.Has t) (id : String) :
    foreseen { s with indexer := s.indexer.step s.analyzers 1 shard } (s.followed shard v t) id =
      s.foreseen t id := by
  have hschema (he : v.epoch = t.epoch) : s.indexer.schemaOf v.epoch = t.schema := by
    rw [Indexer.schemaOf, Catalog.schemaOf, he, show s.indexer.catalog.tables.get? t.epoch = some t from ht.2]
    rfl
  have hqueues : (s.indexer.step s.analyzers 1 shard).queues.waiting =
      s.indexer.queues.waiting.modify shard (·.drop 1) := Indexer.waiting_step ..
  obtain ⟨hturn, hother⟩ := Queues.pending_drop hq _ hqueues t.name t.epoch id
  rw [foreseen, foreseen, pending, pending, name_followed, epoch_followed, schema_followed,
    document?_followed hs ht]
  by_cases h : s.indexer.queues.Turn shard v t.name t.epoch id
  · rw [if_pos ⟨h.1, h.2.1⟩, hturn h, hschema h.2.1, List.foldl_cons]
  · rw [hother h]
    congr 1
    split
    next hi =>
      exact Change.edit_leave_of_not_concerns (Bool.eq_false_iff.2 fun hc => h ⟨hi.1, hi.2, hc⟩) ..
    next => rfl

theorem foresees_step (hs : s.Sound) (hq : s.indexer.queues.waiting[shard]? = some (v :: rest)) :
    s.Foresees { s with indexer := s.indexer.step s.analyzers 1 shard } := by
  intro name t ht
  have hcat : s.catalog.Sound := hs.indexer.catalog
  have hstep := Indexer.step_one s.analyzers hq
  rw [Indexer.follow_eq] at hstep
  have hget : (s.indexer.step s.analyzers 1 shard).catalog.get? name = some (s.followed shard v t) := by
    rw [hstep]
    exact hcat.get?_alter ht ..
  exact ⟨_, hget, name_followed .., schema_followed .., foreseen_step hs hq (hcat.has ht)⟩

end

theorem foresees_work (hs : s.Sound) (limit shard : Nat) :
    s.Foresees ((Move.work limit shard).apply s) := by
  rw [Move.apply]
  induction limit generalizing s with
  | zero =>
    rw [Indexer.step_zero]
    exact .refl s
  | succ limit ih =>
    cases hn : s.indexer.queues.waiting.getD shard [] with
    | nil =>
      rw [Indexer.step_of_nil hn]
      exact .refl s
    | cons v rest =>
      have hw := Queues.getElem?_waiting hn
      rw [Indexer.step_succ]
      exact (foresees_step hs hw).trans (ih (hs.step (.work hw)).1)

theorem foresees_after (hs : s.Sound) (batches : List (Nat × Nat)) :
    s.Foresees (s.after (batches.map fun batch => .work batch.1 batch.2)) := by
  induction batches generalizing s with
  | nil => exact .refl s
  | cons batch rest ih =>
    exact (foresees_work hs batch.1 batch.2).trans (ih (hs.steps (steps_work s batch.1 batch.2)).1)

theorem shown_settle (hs : s.Sound) {name : String} {t : Table} (ht : s.catalog.get? name = some t) :
    ∃ t', s.settle.catalog.get? name = some t' ∧ ∀ id d,
      (∃ segment ∈ t'.shards, segment.document? id = some d) ↔ s.foreseen t id = some d := by
  obtain ⟨batches, hb⟩ := s.exists_after_eq_settle
  obtain ⟨t', ht', hname, -, hforeseen⟩ := foresees_after hs batches name t ht
  have hsound := (hs.steps (steps_after hs (batches.map fun batch => .work batch.1 batch.2))).1
  rw [← hb] at ht' hforeseen hsound
  have hshards := (hsound.indexer.catalog.shards (hsound.indexer.catalog.has ht').2).2
  refine ⟨t', ht', fun id d => ?_⟩
  have hnil : s.settle.pending t' id = [] := by
    have hwaiting := Indexer.nothing_waits_settle s.analyzers s.config.batchSize s.indexer
    rw [pending, Queues.pending, List.getD_eq_getElem?_getD]
    cases hw : s.settle.indexer.queues.waiting[shardOf t'.name id s.settle.indexer.queues.shards]? with
    | none => rfl
    | some events => rw [hwaiting events (List.mem_of_getElem? hw)]; rfl
  rw [← hshards.document?_eq_some, ← hforeseen, foreseen, hnil, List.foldl_nil]

end Service

end Corpus
