import Corpus.Proofs.Service.Standing

/-! The index of every table follows the store. -/

namespace Corpus.Service

open Store (latest)

def standing (s : Service) (g : List Happening) (t : Table) (id : String) : Standing where
  stored := s.store.record? t.name id
  put := lastPut? t.epoch id g
  analyzed := lastAnalyzed? t.epoch id g
  shown := t.shards.document? t.name id

def pending (s : Service) (t : Table) (id : String) : List Change :=
  s.indexer.queues.pending t.name t.epoch id

structure Kept (s : Service) (g : List Happening) : Prop where
  sound : s.Sound
  store : s.store.Sound
  names : ∀ name, s.store.tables.contains name = (s.catalog.current.get? name).isSome
  past : ∀ x ∈ g, x.epoch < s.catalog.nextEpoch
  agrees : ∀ {t}, s.catalog.Has t → ∀ id,
    (s.standing g t id).Agrees s.analyzers (s.pending t id)

variable {s : Service} {g : List Happening}

theorem Kept.of_eq (h : s.Kept g) {u : Service} (hi : u.indexer = s.indexer)
    (ha : u.analyzers = s.analyzers) (hs : u.store = s.store) (hd : u.destroyed = s.destroyed) :
    u.Kept g := by
  obtain ⟨config, analyzers, indexer, store, cache, identities, destroyed⟩ := u
  cases hi
  cases ha
  cases hs
  cases hd
  exact ⟨⟨h.sound.alive, h.sound.indexer⟩, h.store, h.names, h.past, h.agrees⟩

theorem Kept.setSchema (h : s.Kept g) {table : String} {schema : Schema} {c : Catalog}
    (hc : s.catalog.setSchema table schema = .ok c) :
    Kept { s with indexer := { s.indexer with catalog := c } } g := by
  have hcat : s.catalog.Sound := h.sound.indexer.catalog
  have hsound := (h.sound.step (.setSchema hc)).1
  rw [Catalog.setSchema_eq hcat] at hc
  split at hc
  next t ht =>
    cases hc
    refine ⟨hsound, h.store, h.names, h.past, fun hu id => ?_⟩
    obtain ⟨w, hw, rfl⟩ := hu.exists_of_alter hcat fun _ => rfl
    split
    next => exact h.agrees hw id
    next => exact h.agrees hw id
  next => cases hc

theorem agrees_store {u : Table} {id : String}
    (h : (s.standing g u id).Agrees s.analyzers (s.pending u id)) {store : Store}
    (hr : store.record? u.name id = s.store.record? u.name id) :
    Standing.Agrees s.analyzers { s.standing g u id with stored := store.record? u.name id }
      (s.pending u id) := by
  rw [hr]
  exact h

theorem Kept.record?_eq_none (h : s.Kept g) {name : String}
    (hn : s.catalog.current.get? name = none) (id : String) : s.store.record? name id = none := by
  have hc := h.names name
  rw [hn, Dict.contains, Option.isSome_none, Option.isSome_eq_false_iff,
    Option.isNone_iff_eq_none] at hc
  rw [Store.record?, hc]
  rfl

theorem Kept.pending_eq_nil (h : s.Kept g) {u : Table} (hu : u.epoch = s.catalog.nextEpoch)
    (id : String) : s.pending u id = [] := by
  rw [pending, Queues.pending, List.map_eq_nil_iff, List.filter_eq_nil_iff]
  intro v hv hc
  have he : v.epoch = u.epoch := by
    rw [Bool.and_eq_true, decide_eq_true_eq] at hc
    exact hc.1
  rw [List.getD_eq_getElem?_getD] at hv
  cases hw : s.indexer.queues.waiting[shardOf u.name id s.indexer.queues.shards]? with
  | none => rw [hw] at hv; cases hv
  | some events =>
    rw [hw] at hv
    obtain ⟨t, ht, -⟩ := h.sound.indexer.named hw v hv
    have hlt := (h.sound.indexer.catalog.epoch ht).2
    exact absurd (he.trans hu) (Nat.ne_of_lt hlt)

theorem Kept.agrees_fresh (h : s.Kept g) {u : Table} (hu : u.epoch = s.catalog.nextEpoch)
    (hn : s.catalog.current.get? u.name = none) {n : Nat} (hs : u.shards = .new n) (id : String) :
    (s.standing g u id).Agrees s.analyzers (s.pending u id) := by
  have hpast : ∀ x ∈ g, x.epoch ≠ u.epoch := fun x hx => hu ▸ Nat.ne_of_lt (h.past x hx)
  rw [h.pending_eq_nil hu, standing, h.record?_eq_none hn, lastPut?_eq_none hpast, hs,
    Shards.document?_new]
  exact ⟨nofun, Standing.settled_of_shown_eq_none nofun rfl⟩

theorem Kept.create (h : s.Kept g) {table : String} {store : Store}
    (hs : s.store.create (tableName table) = .ok store) :
    Kept { s with
      store, indexer := { s.indexer with catalog := s.catalog.create table } } g := by
  obtain ⟨hstore, hrecord, hcontains⟩ := h.store.create hs
  refine ⟨(h.sound.step (.create hs)).1, hstore, fun name => ?_, fun x hx => ?_, fun hu id => ?_⟩
  · rw [hcontains, h.names]
    exact (s.catalog.isSome_current_create table name).symm
  · exact Nat.lt_of_lt_of_le (h.past x hx) (s.catalog.nextEpoch_le_create table)
  · cases hu.of_create with
    | inl hu => exact agrees_store (h.agrees hu id) (hrecord _ id)
    | inr hfresh =>
      obtain ⟨rfl, hnone⟩ := hfresh
      exact agrees_store (h.agrees_fresh rfl hnone rfl id) (hrecord _ id)

theorem Kept.drop (h : s.Kept g) {table : String} {t : Table} {store : Store}
    (ht : s.catalog.get? table = some t) (hs : s.store.drop t.name = .ok store) :
    Kept { s with
      store, indexer := { s.indexer with catalog := s.catalog.remove t.epoch } } g := by
  have hcat : s.catalog.Sound := h.sound.indexer.catalog
  have hhas := hcat.has ht
  obtain ⟨hstore, hrecord, hcontains⟩ := h.store.drop hs
  refine ⟨(h.sound.step (.drop ht hs)).1, hstore, fun name => ?_, fun x hx => ?_, fun hu id => ?_⟩
  · rw [hcontains, h.names]
    exact (Catalog.isSome_current_remove hcat hhas name).symm
  · exact Nat.lt_of_lt_of_eq (h.past x hx) (s.catalog.nextEpoch_remove t.epoch).symm
  · obtain ⟨hu, he⟩ := hhas.of_remove hcat hu
    exact agrees_store (h.agrees hu id) (hrecord _ id fun hn => he ((hu.name_eq_iff hhas).1 hn))

section

variable {table : String} {t : Table}

theorem Kept.pending_acceptAll (h : s.Kept g) (ht : s.catalog.Has t) {u : Table}
    (hu : s.catalog.Has u) (changes : List Change) (id : String) :
    (s.indexer.queues.acceptAll t changes).pending u.name u.epoch id =
      s.pending u id ++ if t.epoch = u.epoch then changes.filter (·.concerns id) else [] := by
  have hq : 0 < s.indexer.queues.shards := h.sound.indexer.shards ▸ h.sound.indexer.catalog.positive
  exact Queues.pending_acceptAll hq t changes (fun he => (ht.name_eq_iff hu).2 he) id

theorem Kept.past_append (h : s.Kept g) {e : Nat} (ht : s.catalog.tables.get? e = some t)
    {g' : List Happening} (hg : ∀ x ∈ g', x.epoch = e) :
    ∀ x ∈ g ++ g', x.epoch < s.catalog.nextEpoch := by
  intro x hx
  cases List.mem_append.1 hx with
  | inl hx => exact h.past x hx
  | inr hx => exact hg x hx ▸ (h.sound.indexer.catalog.epoch ht).2

theorem Kept.clear (h : s.Kept g) (ht : s.catalog.get? table = some t) :
    Kept { s with indexer := { s.indexer with queues := s.indexer.queues.acceptAll t [.clear] } }
      (g ++ [.clear t.epoch]) := by
  have hhas := h.sound.indexer.catalog.has ht
  refine ⟨(h.sound.step (.clear ht)).1, h.store, h.names, h.past_append hhas.2 fun x hx => ?_,
    fun {u} hu id => ?_⟩
  · rw [List.mem_singleton.1 hx]
    rfl
  · have hold := h.agrees hu id
    rw [standing, pending, h.pending_acceptAll hhas hu, lastPut?_append, lastAnalyzed?_append]
    by_cases he : t.epoch = u.epoch
    · simp only [if_pos he, List.foldl_cons, List.foldl_nil, Happening.put?, Happening.analyzed?]
      exact Standing.agrees_clear (s.pending u id) (s.standing g u id)
    · simp only [if_neg he, List.foldl_cons, List.foldl_nil, Happening.put?, Happening.analyzed?,
        List.append_nil]
      exact hold

theorem Kept.exists_put (h : s.Kept g) (ht : s.catalog.Has t) (records : List Record) :
    ∃ store, s.store.put t.name records = .ok store := by
  have hcurrent : s.store.tables.contains t.name := by rw [h.names, ht.1]; rfl
  obtain ⟨partitions, hp⟩ := Option.isSome_iff_exists.1 hcurrent
  have htable : s.store.table t.name = .ok partitions := by
    rw [Store.table, if_neg h.store.isOpen, hp]
  rw [Store.put, htable]
  exact ⟨_, rfl⟩

theorem Kept.put (h : s.Kept g) (ht : s.catalog.get? table = some t) {records : List Record}
    {store : Store} (hs : s.store.put t.name records = .ok store) :
    Kept { s with
      store
      indexer := { s.indexer with
        queues := s.indexer.queues.acceptAll t (records.map .upsert) } }
      (g ++ records.map (.put t.epoch)) := by
  have hhas := h.sound.indexer.catalog.has ht
  obtain ⟨hstore, hrecord, hcontains⟩ := h.store.put hs
  refine ⟨(h.sound.step (.put ht hs)).1, hstore, fun name => (hcontains name).trans (h.names name),
    h.past_append hhas.2 fun x hx => ?_, fun {u} hu id => ?_⟩
  · obtain ⟨r, -, rfl⟩ := List.mem_map.1 hx
    rfl
  · have hold := h.agrees hu id
    rw [standing, pending, h.pending_acceptAll hhas hu, lastPut?_append, lastAnalyzed?_append,
      foldl_put?_puts, foldl_analyzed?_puts, hrecord]
    by_cases he : t.epoch = u.epoch
    · rw [if_pos he, if_pos he, if_pos ((hu.name_eq_iff hhas).2 he.symm)]
      exact hold.put id records
    · rw [if_neg he, if_neg he, if_neg fun hn => he ((hu.name_eq_iff hhas).1 hn).symm,
        List.append_nil]
      exact hold

theorem Kept.delete (h : s.Kept g) (ht : s.catalog.get? table = some t) {deleted : List String}
    {store : Store} (hs : (∃ ids, s.store.deleteIds t.name ids = .ok (deleted, store)) ∨
      ∃ lower upper, s.store.deleteTimes t.name lower upper = .ok (deleted, store)) :
    Kept { s with
      store
      indexer := { s.indexer with
        queues := s.indexer.queues.acceptAll t (deleted.map .tombstone) } } g := by
  have hhas := h.sound.indexer.catalog.has ht
  obtain ⟨hstore, hrecord, hcontains⟩ := h.store.delete hs
  refine ⟨(h.sound.step (.delete ht hs)).1, hstore,
    fun name => (hcontains name).trans (h.names name), h.past, fun {u} hu id => ?_⟩
  have hold := h.agrees hu id
  rw [standing, pending, h.pending_acceptAll hhas hu, hrecord]
  by_cases he : t.epoch = u.epoch
  · rw [if_pos he, if_pos ((hu.name_eq_iff hhas).2 he.symm)]
    exact hold.delete id deleted
  · rw [if_neg he, if_neg fun hn => he ((hu.name_eq_iff hhas).1 hn).symm, List.append_nil]
    exact hold

section

variable {shard : Nat} {v : Event} {rest : List Event} {w : Table}

def followed (s : Service) (shard : Nat) (v : Event) (w : Table) : Table :=
  if w.epoch = v.epoch then
    { w with shards :=
      w.shards.update shard (v.change.edit (s.indexer.schemaOf v.epoch) s.analyzers).apply }
  else w

theorem name_followed (s : Service) (shard : Nat) (v : Event) (w : Table) :
    (s.followed shard v w).name = w.name := by
  rw [followed]
  split <;> rfl

theorem epoch_followed (s : Service) (shard : Nat) (v : Event) (w : Table) :
    (s.followed shard v w).epoch = w.epoch := by
  rw [followed]
  split <;> rfl

theorem document?_followed (h : s.Sound) (hw : s.catalog.Has w) (id : String) :
    (s.followed shard v w).shards.document? w.name id =
      if shardOf w.name id s.indexer.queues.shards = shard ∧ v.epoch = w.epoch then
        (v.change.edit (s.indexer.schemaOf v.epoch) s.analyzers).leave id
          (w.shards.document? w.name id)
      else w.shards.document? w.name id := by
  obtain ⟨hlen, hsound⟩ := h.indexer.catalog.shards hw.2
  rw [followed]
  split
  next he =>
    rw [hsound.document?_update fun d hd => (Change.of_edit_eq_upsert hd).2, hlen,
      h.indexer.shards]
    simp [he]
  next he => rw [if_neg fun hc => he hc.2.symm]

theorem standing_followed (h : s.Sound) (hw : s.catalog.Has w) (id : String) :
    s.standing (g ++ v.happenings s.indexer.schemaOf) (s.followed shard v w) id =
      { s.standing g w id with
        analyzed := match v.change with
          | .upsert r =>
            if v.epoch = w.epoch ∧ r.id = id then some (r, s.indexer.schemaOf v.epoch)
            else lastAnalyzed? w.epoch id g
          | .tombstone _ | .clear => lastAnalyzed? w.epoch id g
        shown :=
          if shardOf w.name id s.indexer.queues.shards = shard ∧ v.epoch = w.epoch then
            (v.change.edit (s.indexer.schemaOf v.epoch) s.analyzers).leave id
              (w.shards.document? w.name id)
          else w.shards.document? w.name id } := by
  rw [standing, lastPut?_append, foldl_put?_happenings, lastAnalyzed?_append,
    foldl_analyzed?_happenings, name_followed, epoch_followed, document?_followed h hw]
  rfl

theorem standing_of_turn (h : s.Sound) (hw : s.catalog.Has w) {id : String}
    (ht : s.indexer.queues.Turn shard v w.name w.epoch id) :
    s.standing (g ++ v.happenings s.indexer.schemaOf) (s.followed shard v w) id =
      (s.standing g w id).follow s.analyzers (s.indexer.schemaOf v.epoch) id v.change := by
  obtain ⟨hi, he, hc⟩ := ht
  rw [standing_followed h hw, if_pos ⟨hi, he⟩]
  cases hv : v.change with
  | upsert r =>
    obtain rfl : r.id = id := by simpa [Change.concerns, Change.id?, hv] using hc
    simp [he, standing, Standing.follow]
  | tombstone id' => rfl
  | clear => rfl

theorem standing_of_not_turn (h : s.Sound)
    (hq : s.indexer.queues.waiting[shard]? = some (v :: rest)) (hw : s.catalog.Has w) {id : String}
    (ht : ¬s.indexer.queues.Turn shard v w.name w.epoch id) :
    s.standing (g ++ v.happenings s.indexer.schemaOf) (s.followed shard v w) id =
      s.standing g w id := by
  have hshown : (if shardOf w.name id s.indexer.queues.shards = shard ∧ v.epoch = w.epoch then
      (v.change.edit (s.indexer.schemaOf v.epoch) s.analyzers).leave id
        (w.shards.document? w.name id)
      else w.shards.document? w.name id) = w.shards.document? w.name id := by
    split
    next hi =>
      refine Change.edit_leave_of_not_concerns (Bool.eq_false_iff.2 fun hc => ht ?_) _ _ _
      exact ⟨hi.1, hi.2, hc⟩
    next => rfl
  rw [standing_followed h hw, hshown]
  cases hv : v.change with
  | upsert r =>
    -- a record waits on the shard of its own identity only
    have hne : ¬(v.epoch = w.epoch ∧ r.id = id) := by
      intro ⟨he, hid⟩
      have hplaced := h.indexer.placed hq v (.head _) r.id (by rw [hv]; rfl)
      obtain ⟨t, hget, hn⟩ := h.indexer.named hq v (.head _)
      have htw : t = w := Option.some.inj (hget.symm.trans (he ▸ hw.2))
      rw [← hn, htw, hid] at hplaced
      exact ht ⟨hplaced, he, by simp [Change.concerns, Change.id?, hv, hid]⟩
    simp only [if_neg hne]
    rfl
  | tombstone id' => rfl
  | clear => rfl

theorem Kept.work (h : s.Kept g) (hq : s.indexer.queues.waiting[shard]? = some (v :: rest)) :
    Kept { s with indexer := s.indexer.step s.analyzers 1 shard }
      (g ++ v.happenings s.indexer.schemaOf) := by
  have hsound := (h.sound.step (.work hq)).1
  obtain ⟨t, ht, -⟩ := h.sound.indexer.named hq v (.head _)
  have hstep := Indexer.step_one s.analyzers hq
  rw [Indexer.follow_eq] at hstep
  rw [hstep] at hsound ⊢
  refine ⟨hsound, h.store, h.names,
    h.past_append ht fun x hx => Event.epoch_of_mem_happenings hx, fun {u} hu id => ?_⟩
  obtain ⟨w, hw, hu⟩ := hu.exists_of_alter h.sound.indexer.catalog fun _ => rfl
  obtain rfl : u = s.followed shard v w := hu
  have hold := h.agrees hw id
  obtain ⟨hturn, hother⟩ := Queues.pending_drop hq { s.indexer.queues with
    waiting := s.indexer.queues.waiting.modify shard (·.drop 1) } rfl w.name w.epoch id
  show (s.standing (g ++ v.happenings s.indexer.schemaOf) _ id).Agrees s.analyzers
    (Queues.pending _ (s.followed shard v w).name (s.followed shard v w).epoch id)
  rw [name_followed, epoch_followed]
  by_cases ht : s.indexer.queues.Turn shard v w.name w.epoch id
  · rw [standing_of_turn h.sound hw ht]
    rw [pending, hturn ht] at hold
    exact hold.follow ht.2.2 _
  · rw [standing_of_not_turn h.sound hq hw ht]
    rw [pending, ← hother ht] at hold
    exact hold

end

end

theorem Kept.step (h : s.Kept g) {u : Service} {g' : List Happening} (hs : Step s g' u) :
    u.Kept (g ++ g') := by
  cases hs with
  | look | name | forget => rw [List.append_nil]; exact h.of_eq rfl rfl rfl rfl
  | create hs => rw [List.append_nil]; exact h.create hs
  | drop ht hs => rw [List.append_nil]; exact h.drop ht hs
  | setSchema hc => rw [List.append_nil]; exact h.setSchema hc
  | put ht hs => exact h.put ht hs
  | delete ht hs => rw [List.append_nil]; exact h.delete ht hs
  | clear ht => exact h.clear ht
  | work hw => exact h.work hw

theorem Kept.steps (h : s.Kept g) {u : Service} {g' : List Happening} (hs : Steps s g' u) :
    u.Kept (g ++ g') := by
  induction hs generalizing g with
  | nil => rwa [List.append_nil]
  | cons hs _ ih =>
    rw [← List.append_assoc]
    exact ih (h.step hs)

theorem Kept.start {config : Config} {windows : Bool} (h : Service.start config windows = .ok s) :
    s.Kept [] := by
  have hs := Sound.start h
  obtain ⟨-, -, h⟩ := bind_eq_ok.1 h
  cases h
  exact ⟨hs, .new .., fun _ => rfl, nofun, fun ht => nomatch ht.1⟩

theorem kept_after {config : Config} {windows : Bool} (h : Service.start config windows = .ok s)
    (moves : List Move) : (s.after moves).Kept (s.history moves) := by
  have hkept := (Kept.start h).steps (steps_after (.start h) moves)
  rwa [List.nil_append] at hkept

/-- The index of a table shows the records of the store that were put since it was last cleared. -/
structure Mirrors (s : Service) (g : List Happening) (t : Table) : Prop where
  shown : ∀ id d, (∃ segment ∈ t.shards, segment.document? id = some d) ↔
    ∃ r schema, s.store.record? t.name id = some r ∧ lastPut? t.epoch id g = some r ∧
      lastAnalyzed? t.epoch id g = some (r, schema) ∧
      Document.ofRecord schema s.analyzers r = .ok d
  last : ∀ id r, s.store.record? t.name id = some r →
    lastPut? t.epoch id g = none ∨ lastPut? t.epoch id g = some r
  analyzed : ∀ id r, s.store.record? t.name id = some r → lastPut? t.epoch id g = some r →
    ∃ schema, lastAnalyzed? t.epoch id g = some (r, schema)
  live : ∀ segment ∈ t.shards, ∀ id, segment.contains id ↔ (segment.document? id).isSome
  placed : ∀ i segment, t.shards[i]? = some segment →
    ∀ id, segment.contains id → i = shardOf t.name id t.shards.length
  faithful : ∀ segment ∈ t.shards, segment.Faithful

theorem Kept.mirrors (h : s.Kept g) (hq : ∀ events ∈ s.indexer.queues.waiting, events = [])
    {t : Table} (ht : s.catalog.Has t) : s.Mirrors g t := by
  have hshards := (h.sound.indexer.catalog.shards ht.2).2
  have hlive (segment : Segment) (hs : segment ∈ t.shards) (id : String) :
      segment.contains id ↔ (segment.document? id).isSome :=
    (hshards.faithful segment hs).isSome_docOf? id
  have hnil (id : String) : s.pending t id = [] := by
    rw [pending, Queues.pending, List.getD_eq_getElem?_getD]
    cases hw : s.indexer.queues.waiting[shardOf t.name id s.indexer.queues.shards]? with
    | none => rfl
    | some events => rw [hq events (List.mem_of_getElem? hw)]; rfl
  have hagrees (id : String) : (s.standing g t id).Agrees s.analyzers [] := hnil id ▸ h.agrees ht id
  refine ⟨fun id d => ?_, fun id => (hagrees id).last, fun id => (hagrees id).awaits.analyzed, hlive,
    fun i segment hs id hid => ?_, hshards.faithful⟩
  · rw [← hshards.document?_eq_some]
    exact (hagrees id).awaits.shown d
  · obtain ⟨d, hd⟩ := Option.isSome_iff_exists.1
      ((hlive segment (List.mem_of_getElem? hs) id).1 hid)
    exact (hshards.placed hs hd).symm

/-- Once nothing waits the index does not differ from the store. -/
theorem mirrors_after {config : Config} {windows : Bool} (h : Service.start config windows = .ok s)
    (moves : List Move)
    (hq : ∀ events ∈ (s.after moves).indexer.queues.waiting, events = []) :
    (∀ name, name ∈ (s.after moves).catalog.names ↔ name ∈ (s.after moves).store.tables.keys) ∧
    ∀ name t, (s.after moves).catalog.get? name = some t →
      (s.after moves).Mirrors (s.history moves) t := by
  have hkept := (Kept.start h).steps (steps_after (.start h) moves)
  rw [List.nil_append] at hkept
  refine ⟨fun name => ?_, fun name t ht => hkept.mirrors hq (hkept.sound.indexer.catalog.has ht)⟩
  have hname := hkept.names name
  rw [Catalog.names, Dict.mem_keys_iff, Dict.mem_keys_iff, ← hname]
  rfl

def threeRecords : List Move :=
  [.ask (.createTable "t"),
    .ask (.put [⟨"3", "t", 0, .ofList [("x", .string "a")]⟩]),
    .ask (.clearIndex "t"),
    .ask (.put [⟨"1", "t", 0, .ofList [("x", .string "a")]⟩,
      ⟨"2", "t", 0, .ofList [("x", .string "b")]⟩,
      ⟨"1", "t", 0, .ofList [("x", .string "c")]⟩]),
    .ask (.deleteIds "t" ["2"]),
    .work 3 0, .work 9 0]

theorem mirrors_after_threeRecords : ∃ (s : Service) (t : Table),
    Service.start { Config.standard with indexShards := 1, defaultAnalyzer := "keyword" } true =
      .ok s ∧
    (s.after threeRecords).catalog.get? "t" = some t ∧
    (s.after threeRecords).Mirrors (s.history threeRecords) t := by
  have hrun : (Service.start { Config.standard with
      indexShards := 1, defaultAnalyzer := "keyword" } true).toOption.any fun s =>
        (s.after threeRecords).indexer.queues.waiting.all (·.isEmpty) &&
          ((s.after threeRecords).catalog.get? "t").isSome := by
    decide +kernel
  cases hs : Service.start { Config.standard with
      indexShards := 1, defaultAnalyzer := "keyword" } true with
  | error e => rw [hs] at hrun; cases hrun
  | ok s =>
    rw [hs] at hrun
    obtain ⟨hwaiting, hget⟩ := Bool.and_eq_true_iff.1 hrun
    obtain ⟨t, ht⟩ := Option.isSome_iff_exists.1 hget
    have hnil := fun events he => List.isEmpty_iff.1 (List.all_eq_true.1 hwaiting events he)
    exact ⟨s, t, rfl, ht, (mirrors_after hs threeRecords hnil).2 "t" t ht⟩

theorem mirrors_settle {config : Config} {windows : Bool} (h : Service.start config windows = .ok s)
    (moves : List Move) : ∃ batches : List (Nat × Nat),
      (s.after moves).settle =
        s.after (moves ++ batches.map fun batch => .work batch.1 batch.2) ∧
      ∀ name t, (s.after moves).settle.catalog.get? name = some t →
        (s.after moves).settle.Mirrors
          (s.history (moves ++ batches.map fun batch => .work batch.1 batch.2)) t := by
  obtain ⟨batches, hb⟩ := (s.after moves).exists_after_eq_settle
  have hafter : (s.after moves).settle =
      s.after (moves ++ batches.map fun batch => .work batch.1 batch.2) := by
    rw [hb, after, after, after, List.foldl_append]
  have hnil := Indexer.nothing_waits_settle (s.after moves).analyzers
    (s.after moves).config.batchSize (s.after moves).indexer
  have hkept := (Kept.start h).steps (steps_after (.start h)
    (moves ++ batches.map fun batch => .work batch.1 batch.2))
  rw [List.nil_append, ← hafter] at hkept
  exact ⟨batches, hafter, fun name t ht =>
    hkept.mirrors hnil (hkept.sound.indexer.catalog.has ht)⟩

end Corpus.Service
