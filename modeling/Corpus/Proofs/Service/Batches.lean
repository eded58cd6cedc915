import Corpus.Proofs.Data.Grouping
import Corpus.Proofs.Identity
import Corpus.Proofs.Service.Agreement

/-! The batches of a put, table by table: each goes to its table as a whole, or not at all. -/

namespace Corpus.Service

open Corpus.Action
open Store (latest)

variable {s s' s'' : Service} {t : Table}

/-- What a service does with records that are named, and nothing else: they are stored, and they wait for
the indexer. -/
structure Takes (s s' : Service) (records : List Record) : Prop where
  catalog : s'.catalog = s.catalog
  analyzers : s'.analyzers = s.analyzers
  record? : ∀ name id, s'.store.record? name id =
    latest id (s.store.record? name id) (records.filter (·.table = name))
  pending : ∀ {u}, s.catalog.Has u → ∀ id, s'.pending u id = s.pending u id ++
    ((records.filter (·.table = u.name)).map Change.upsert).filter (·.concerns id)

theorem Takes.refl (s : Service) : s.Takes s [] :=
  ⟨rfl, rfl, fun _ _ => rfl, fun _ _ => (List.append_nil _).symm⟩

theorem Takes.trans {rs rs' : List Record} (h : s.Takes s' rs) (h' : s'.Takes s'' rs') :
    s.Takes s'' (rs ++ rs') where
  catalog := h'.catalog.trans h.catalog
  analyzers := h'.analyzers.trans h.analyzers
  record? name id := by
    rw [h'.record?, h.record?, List.filter_append, latest, latest, latest, List.foldl_append]
  pending hu id := by
    rw [h'.pending (h.catalog ▸ hu), h.pending hu, List.append_assoc, List.filter_append,
      List.map_append, List.filter_append]

structure Named (c : Catalog) (a b : Record × Nat) : Prop where
  place : b.2 = a.2
  record : b.1 = { a.1 with id := b.1.id, table := tableName a.1.table }
  kept : a.1.id ≠ "" → b.1.id = a.1.id
  given : ∀ {t id}, c.get? a.1.table = some t →
    Identity.ofRecord t.schema a.1 = .ok (.given id) → b.1.id = id

theorem Named.table_eq {c : Catalog} {batch named : List (Record × Nat)}
    (h : List.Forall₂ (Named c) batch named) {name : String}
    (hn : ∀ a ∈ batch, tableName a.1.table = name) : ∀ r ∈ named.map (·.1), r.table = name := by
  induction h with
  | nil => exact nofun
  | cons hab _ ih =>
    rw [List.forall_mem_cons] at hn
    rw [List.map_cons, List.forall_mem_cons]
    exact ⟨(congrArg Record.table hab.record).trans hn.1, ih hn.2⟩

section

variable {batch : List (Record × Nat)} {r : Record}

theorem exists_perform_identify {c : Catalog} (hc : c.Sound) (ht : c.get? r.table = some t)
    {identity : Identity} (h : Identity.ofRecord t.schema r = .ok identity) (place : Nat)
    (s : Service) : ∃ r' n, (identify t r).perform s = (.ok r', { s with identities := n }) ∧
      Named c (r, place) (r', place) := by
  have hname : t.name = tableName r.table := (hc.get? ht).2.2.1
  cases identity with
  | given id =>
    refine ⟨_, s.identities, perform_identify_given h s, rfl, ?_, fun hr => ?_, fun ht' hid => ?_⟩
    · rw [hname]
    · exact Identity.given.inj (Identity.eq_given h hr)
    · cases ht.symm.trans ht'
      cases h.symm.trans hid
      rfl
  | fresh =>
    refine ⟨_, s.identities + 1, perform_identify_fresh h s, rfl, ?_, fun hr => ?_,
      fun ht' hid => ?_⟩
    · rw [hname]
    · cases Identity.eq_given h hr
    · cases ht.symm.trans ht'
      cases h.symm.trans hid

theorem exists_perform_identifyAll {c : Catalog} (hc : c.Sound)
    (ht : ∀ a ∈ batch, c.get? a.1.table = some t)
    (hb : ∀ a ∈ batch, ∃ identity, Identity.ofRecord t.schema a.1 = .ok identity) (s : Service) :
    ∃ named n, (identifyAll t batch).perform s = (.ok named, { s with identities := n }) ∧
      List.Forall₂ (Named c) batch named := by
  induction batch generalizing s with
  | nil => exact ⟨[], s.identities, rfl, .nil⟩
  | cons a rest ih =>
    obtain ⟨r, place⟩ := a
    rw [List.forall_mem_cons] at ht hb
    obtain ⟨identity, hid⟩ := hb.1
    obtain ⟨r', n, hr, hnamed⟩ := exists_perform_identify hc ht.1 hid place s
    obtain ⟨named, m, hrest, hall⟩ := ih ht.2 hb.2 { s with identities := n }
    refine ⟨(r', place) :: named, m, ?_, .cons hnamed hall⟩
    rw [perform_identifyAll_cons, hr]
    simp only [hrest, Except.map]

theorem exists_perform_identifyAll_error {a : Record × Nat} (ha : a ∈ batch)
    (hb : ¬∃ identity, Identity.ofRecord t.schema a.1 = .ok identity) (s : Service) :
    ∃ b ∈ batch, ∃ key, Identity.ofRecord t.schema b.1 = .error (.missingKey key) ∧
      (identifyAll t batch).perform s = (.error (.missingKey key), s) := by
  have hk : t.schema.primaryKeys ≠ [] := by
    cases hid : Identity.ofRecord t.schema a.1 with
    | ok identity => exact absurd ⟨identity, hid⟩ hb
    | error e => exact (Identity.of_ofRecord_eq_error hid).1
  induction batch with
  | nil => cases ha
  | cons b rest ih =>
    obtain ⟨r, place⟩ := b
    cases hid : Identity.ofRecord t.schema r with
    | error e =>
      obtain ⟨-, key, -, -, rfl⟩ := Identity.of_ofRecord_eq_error hid
      exact ⟨_, .head _, key, hid, by rw [perform_identifyAll_cons, perform_identify_error hid]⟩
    | ok identity =>
      cases identity with
      | given id =>
        have hne : a ≠ (r, place) := fun he => by
          rw [he] at hb
          exact hb ⟨_, hid⟩
        obtain ⟨b, hmem, key, hkey, hrest⟩ := ih ((List.mem_cons.1 ha).resolve_left hne)
        refine ⟨b, .tail _ hmem, key, hkey, ?_⟩
        rw [perform_identifyAll_cons, perform_identify_given hid]
        simp only [hrest, Except.map]
      -- where a key can be missing there are keys, and no identity is chosen freely
      | fresh => exact absurd (Identity.primaryKeys_eq_nil hid) hk

variable {g : List Happening} {table : String}

theorem Kept.takes_put (h : s.Kept g) (ht : s.catalog.get? table = some t) {records : List Record}
    {store : Store} (hs : s.store.put t.name records = .ok store)
    (hn : ∀ r ∈ records, r.table = t.name) :
    s.Takes { s with
      store
      indexer := { s.indexer with
        queues := s.indexer.queues.acceptAll t (records.map .upsert) } } records := by
  have hhas := h.sound.indexer.catalog.has ht
  have hfilter (name : String) :
      records.filter (·.table = name) = if name = t.name then records else [] := by
    split
    next he => exact List.filter_eq_self.2 fun r hr => decide_eq_true ((hn r hr).trans he.symm)
    next he =>
      exact List.filter_eq_nil_iff.2 fun r hr hr' =>
        he ((of_decide_eq_true hr').symm.trans (hn r hr))
  refine ⟨rfl, rfl, fun name id => ?_, fun {u} hu id => ?_⟩
  · rw [hfilter, (h.store.put hs).2.1]
    split <;> rfl
  · rw [hfilter, pending, h.pending_acceptAll hhas hu]
    by_cases he : t.epoch = u.epoch
    · rw [if_pos he, if_pos ((hu.name_eq_iff hhas).2 he.symm)]
    · rw [if_neg he, if_neg fun hn => he ((hu.name_eq_iff hhas).1 hn).symm]
      rfl

def Names (records : List Record) (t : Table) : Prop :=
  ∀ r ∈ records, tableName r.table = t.name → ∃ identity, Identity.ofRecord t.schema r = .ok identity

/-- Tables have taken all of what some records are to them, and no other table has taken anything. -/
structure Went (records : List Record) (names : List String) (s s' : Service)
    (stored : List (Record × Nat)) : Prop where
  named : List.Forall₂ (Named s.catalog) (grouped (tableName ·.1.table) names records.zipIdx) stored
  takes : s.Takes s' (stored.map (·.1))
  kept : ∃ g, s'.Kept g

theorem Went.trans {records : List Record} {names names' : List String}
    {named named' : List (Record × Nat)} (h : Went records names s s' named)
    (h' : Went records names' s' s'' named') :
    Went records (names ++ names') s s'' (named ++ named') where
  named := by
    rw [grouped, List.flatMap_append]
    exact List.rel_append h.named (h.takes.catalog ▸ h'.named)
  takes := by
    rw [List.map_append]
    exact h.takes.trans h'.takes
  kept := h'.kept

theorem mem_batch {records : List Record} {name : String} {a : Record × Nat}
    (ha : a ∈ records.zipIdx.filter fun (r, _) => tableName r.table = name) :
    a.1 ∈ records ∧ tableName a.1.table = name := by
  obtain ⟨hmem, hn⟩ := List.mem_filter.1 ha
  exact ⟨List.fst_mem_of_mem_zipIdx hmem, of_decide_eq_true hn⟩

theorem get?_of_mem_batch (hs : s.Sound) (ht : s.catalog.get? table = some t) {records : List Record}
    {a : Record × Nat} (ha : a ∈ records.zipIdx.filter fun (r, _) => tableName r.table = t.name) :
    s.catalog.get? a.1.table = some t := by
  have hname : t.name = tableName table := (hs.indexer.catalog.get? ht).2.2.1
  exact (Catalog.get?_eq_of_tableName ((mem_batch ha).2.trans hname)).trans ht

theorem Kept.putBatch (h : s.Kept g) (ht : s.catalog.get? table = some t) {records : List Record}
    (hn : Names records t) :
    ∃ named s', (Service.putBatch t
        (records.zipIdx.filter fun (r, _) => tableName r.table = t.name)).perform s =
          (.ok (named.map fun b => (b.2, b.1.id)), s') ∧
      Went records [t.name] s s' named := by
  obtain ⟨named, n, hperform, hall⟩ := exists_perform_identifyAll h.sound.indexer.catalog
    (fun a ha => get?_of_mem_batch h.sound ht ha)
    (fun a ha => hn a.1 (mem_batch ha).1 (mem_batch ha).2) s
  have hkept : Kept { s with identities := n } g := h.of_eq rfl rfl rfl rfl
  obtain ⟨store, hstore⟩ := hkept.exists_put (hkept.sound.indexer.catalog.has ht) (named.map (·.1))
  refine ⟨named, _, ?_, ?_, ?_, _, hkept.put ht hstore⟩
  · rw [perform_putBatch h.sound ht, hperform]
    simp only at hstore ⊢
    rw [hstore]
  · rw [grouped, List.flatMap_singleton]
    exact hall
  · have htakes := hkept.takes_put ht hstore (Named.table_eq hall fun a ha => (mem_batch ha).2)
    exact ⟨htakes.catalog, htakes.analyzers, htakes.record?, htakes.pending⟩

theorem exists_perform_putBatch_error (hs : s.Sound) (ht : s.catalog.get? table = some t)
    {records : List Record} (hn : ¬Names records t) :
    ∃ r ∈ records, ∃ key, tableName r.table = t.name ∧
      Identity.ofRecord t.schema r = .error (.missingKey key) ∧
      (Service.putBatch t
        (records.zipIdx.filter fun (r, _) => tableName r.table = t.name)).perform s =
          (.error (.missingKey key), s) := by
  simp only [Names, not_forall] at hn
  obtain ⟨r, hr, htable, hnot⟩ := hn
  obtain ⟨place, hplace⟩ := List.mem_iff_getElem?.1 hr
  have hmem : (r, place) ∈ records.zipIdx.filter fun (r, _) => tableName r.table = t.name :=
    List.mem_filter.2 ⟨List.mk_mem_zipIdx_iff_getElem?.2 hplace, decide_eq_true htable⟩
  obtain ⟨b, hb, key, hid, hperform⟩ := exists_perform_identifyAll_error hmem hnot s
  refine ⟨b.1, (mem_batch hb).1, key, (mem_batch hb).2, hid, ?_⟩
  rw [perform_putBatch hs ht, hperform]

theorem Kept.putTables (h : s.Kept g) {tables : List Table}
    (ht : ∀ t ∈ tables, ∃ name, s.catalog.get? name = some t) {records : List Record}
    (hn : ∀ t ∈ tables, Names records t) :
    ∃ batches named s', (Service.putTables records tables).perform s = (.ok batches, s') ∧
      batches.flatten = named.map (fun b => (b.2, b.1.id)) ∧
      Went records (tables.map (·.name)) s s' named := by
  induction tables generalizing s g with
  | nil => exact ⟨[], [], s, rfl, rfl, .nil, .refl s, g, h⟩
  | cons t rest ih =>
    rw [List.forall_mem_cons] at ht hn
    obtain ⟨name, hname⟩ := ht.1
    obtain ⟨named, s', hbatch, hwent⟩ := h.putBatch hname hn.1
    obtain ⟨g', hkept⟩ := hwent.kept
    obtain ⟨batches, named', s'', hrest, hflatten, hwent'⟩ :=
      ih hkept (hwent.takes.catalog ▸ ht.2) hn.2
    refine ⟨(named.map fun b => (b.2, b.1.id)) :: batches, named ++ named', s'', ?_, ?_,
      hwent.trans hwent'⟩
    · rw [Service.putTables] at hrest ⊢
      rw [List.mapM_cons, perform_bind, hbatch]
      simp only [bind_pure_comp, perform_map, hrest, Except.map]
    · rw [List.flatten_cons, hflatten, List.map_append]

theorem Kept.putTables_error (h : s.Kept g) {before : List Table} (later : List Table)
    (hbefore : ∀ t ∈ before, ∃ name, s.catalog.get? name = some t)
    (ht : s.catalog.get? table = some t) {records : List Record}
    (hn : ∀ t ∈ before, Names records t) (hnot : ¬Names records t) :
    ∃ r ∈ records, ∃ key named s', tableName r.table = t.name ∧
      Identity.ofRecord t.schema r = .error (.missingKey key) ∧
      (Service.putTables records (before ++ t :: later)).perform s = (.error (.missingKey key), s') ∧
      Went records (before.map (·.name)) s s' named := by
  obtain ⟨batches, named, s', hperform, -, hwent⟩ := h.putTables hbefore hn
  obtain ⟨g', hkept⟩ := hwent.kept
  obtain ⟨r, hr, key, htable, hid, hbatch⟩ :=
    exists_perform_putBatch_error hkept.sound (hwent.takes.catalog ▸ ht) hnot
  refine ⟨r, hr, key, named, s', htable, hid, ?_, hwent⟩
  rw [Service.putTables] at hperform ⊢
  -- the later tables are not come to
  rw [List.mapM_append, perform_bind, hperform, List.mapM_cons]
  simp only [perform_bind, hbatch]

end

end Corpus.Service
