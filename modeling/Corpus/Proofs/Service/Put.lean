import Corpus.Proofs.Service.Batches
import Corpus.Proofs.Service.Drilldown
import Corpus.Proofs.Service.Settled
import Corpus.Proofs.Store.Reading
import Corpus.Proofs.Text.Case

/-! Puts of records of several tables: what they answer, and what they leave behind where they fail. -/

namespace Corpus.Service

open Corpus.Action
open Store (latest)

variable {s s' : Service} {t : Table} {records : List Record}

def carried (records : List Record) (ids : List String) (name : String) : List Record :=
  ((records.zip ids).filter fun p => tableName p.1.table = name).map fun p =>
    { p.1 with id := p.2, table := name }

def targets (records : List Record) : List String := (records.map (tableName ·.table)).eraseDups

section Identities

variable {names : List String} {stored : List (Record × Nat)}

def among (records : List Record) (names : List String) : List (Record × Nat) :=
  records.zipIdx.filter fun a => tableName a.1.table ∈ names

theorem map_fst_among (records : List Record) (names : List String) :
    (among records names).map (·.1) = records.filter fun r => tableName r.table ∈ names := by
  have hfilter := filter_map_eq (f := Prod.fst) (p := fun r : Record => tableName r.table ∈ names)
    (fun _ => rfl) records.zipIdx
  rw [List.zipIdx_map_fst] at hfilter
  exact hfilter.symm

variable {c : Catalog}

theorem exists_naming (hn : names.Nodup)
    (h : List.Forall₂ (Named c) (grouped (tableName ·.1.table) names records.zipIdx) stored) :
    ∃ id : Record × Nat → String,
      (Dict.ofList (stored.map fun b => (b.2, b.1.id))).values = (among records names).map id ∧
      (∀ a ∈ among records names, a.1.id ≠ "" → id a = a.1.id) ∧
      (∀ a ∈ among records names, ∀ t id', c.get? a.1.table = some t →
        Identity.ofRecord t.schema a.1 = .ok (.given id') → id a = id') ∧
      stored.map (·.1) = (grouped (tableName ·.1.table) names records.zipIdx).map fun a =>
        { a.1 with id := id a, table := tableName a.1.table } := by
  have hperm : (grouped (tableName ·.1.table) names records.zipIdx).Perm (among records names) :=
    grouped_perm hn _
  obtain ⟨f, rfl, hf⟩ :=
    exists_eq_map_of_forall₂ h (hperm.nodup_iff.2 ((nodup_zipIdx records).filter _))
  refine ⟨fun a => (f a).1.id, ?_, fun a ha => (hf a (hperm.mem_iff.2 ha)).kept,
    fun a ha t id' => (hf a (hperm.mem_iff.2 ha)).given, ?_⟩
  · have hplaces : ((among records names).map fun a => (a.2, (f a).1.id)).Pairwise
        fun a b => compare a.1 b.1 = .lt :=
      List.pairwise_map.2 ((pairwise_zipIdx records).filter _)
    have hentries : ((grouped (tableName ·.1.table) names records.zipIdx).map f).map
        (fun b => (b.2, b.1.id)) =
          (grouped (tableName ·.1.table) names records.zipIdx).map fun a => (a.2, (f a).1.id) := by
      rw [List.map_map]
      exact List.map_congr_left fun a ha => Prod.ext (hf a ha).place rfl
    rw [Dict.values, hentries, Dict.entries_ofList hplaces (hperm.map _), List.map_map]
    rfl
  · rw [List.map_map]
    exact List.map_congr_left fun a ha => (hf a ha).record

theorem filter_stored (hn : names.Nodup) {id : Record × Nat → String}
    (h : stored.map (·.1) = (grouped (tableName ·.1.table) names records.zipIdx).map fun a =>
      { a.1 with id := id a, table := tableName a.1.table }) (name : String) :
    (stored.map (·.1)).filter (·.table = name) =
      carried ((among records names).map (·.1)) ((among records names).map id) name := by
  have hgroup : (grouped (tableName ·.1.table) names records.zipIdx).filter
      (tableName ·.1.table = name) = (among records names).filter (tableName ·.1.table = name) := by
    rw [filter_grouped hn, among, List.filter_filter]
    split
    next hname =>
      refine List.filter_congr fun a _ => ?_
      by_cases ha : tableName a.1.table = name <;> simp [ha, hname]
    next hname =>
      refine (List.filter_eq_nil_iff.2 fun a _ ha => ?_).symm
      obtain ⟨htable, hmem⟩ := Bool.and_eq_true_iff.1 ha
      exact hname (of_decide_eq_true htable ▸ of_decide_eq_true hmem)
  rw [h, carried, List.zip_map', filter_map_eq fun _ => rfl, filter_map_eq fun _ => rfl, hgroup,
    List.map_map]
  refine List.map_congr_left fun a ha => ?_
  have hname : tableName a.1.table = name := of_decide_eq_true (List.mem_filter.1 ha).2
  simp [hname]

end Identities

section Shown

variable {schema : Schema} {analyzers : Analyzers}

theorem latest_concat (id : String) (last : Option Record) (records : List Record) (r : Record) :
    latest id last (records ++ [r]) = if r.id = id then some r else latest id last records := by
  rw [latest, List.foldl_append]
  rfl

theorem foldl_upserts (id : String) (records : List Record) (last : Option Document) :
    ((records.map Change.upsert).filter (·.concerns id)).foldl
        (fun last c => (c.edit schema analyzers).leave id last) last =
      match latest id none records with
      | some r => (Document.ofRecord schema analyzers r).toOption
      | none => last := by
  induction records using List.reverseRecOn with
  | nil => rfl
  | append_singleton records r ih =>
    rw [List.map_append, List.filter_append, List.foldl_append, ih, latest_concat]
    by_cases hid : r.id = id
    · subst hid
      simp only [List.map_cons, List.map_nil, Change.concerns, Change.id?, Option.all_some, decide_true,
        List.filter_cons_of_pos, List.filter_nil, List.foldl_cons, List.foldl_nil, if_true,
        Change.leave_edit_upsert]
    · simp [Change.concerns, Change.id?, hid]

end Shown

/-- What a put comes to for the records that it was carried out for. -/
structure Took (s s' : Service) (records : List Record) (ids : List String) : Prop where
  length : ids.length = records.length
  kept : ∀ p ∈ records.zip ids, p.1.id ≠ "" → p.2 = p.1.id
  given : ∀ p ∈ records.zip ids, ∀ t id, s.catalog.get? p.1.table = some t →
    Identity.ofRecord t.schema p.1 = .ok (.given id) → p.2 = id
  catalog : s'.catalog = s.catalog
  stored : ∀ name id, s'.store.record? name id =
    latest id (s.store.record? name id) (carried records ids name)
  shown : ∀ name t, s.catalog.get? name = some t → ∃ before after,
    s.settle.catalog.get? name = some before ∧ s'.settle.catalog.get? name = some after ∧
    ∀ id d, (∃ segment ∈ after.shards, segment.document? id = some d) ↔
      match latest id none (carried records ids t.name) with
      | some r => Document.ofRecord t.schema s.analyzers r = .ok d
      | none => ∃ segment ∈ before.shards, segment.document? id = some d

theorem Takes.foreseen (h : s.Takes s' records) (ht : s.catalog.Has t) (id : String) :
    s'.foreseen t id = match latest id none (records.filter (·.table = t.name)) with
      | some r => (Document.ofRecord t.schema s.analyzers r).toOption
      | none => s.foreseen t id := by
  rw [Service.foreseen, h.analyzers, h.pending ht, List.foldl_append]
  exact foldl_upserts id _ _

theorem Went.took {names : List String} {stored : List (Record × Nat)} (hs : s.Sound)
    (hn : names.Nodup) (h : Went records names s s' stored) :
    s.Took s' (records.filter fun r => tableName r.table ∈ names)
      (Dict.ofList (stored.map fun b => (b.2, b.1.id))).values := by
  obtain ⟨id, hids, hkept, hgiven, hstored⟩ := exists_naming hn h.named
  have htakes := h.takes
  obtain ⟨g, hs'⟩ := h.kept
  have hfilter := filter_stored hn hstored
  rw [map_fst_among, ← hids] at hfilter
  refine ⟨?_, ?_, ?_, htakes.catalog, fun name id => ?_, fun name t ht => ?_⟩
  · rw [hids, ← map_fst_among, List.length_map, List.length_map]
  · rw [hids, ← map_fst_among, List.zip_map', List.forall_mem_map]
    exact hkept
  · rw [hids, ← map_fst_among, List.zip_map', List.forall_mem_map]
    exact hgiven
  · rw [htakes.record?, hfilter]
  · have ht' : s'.catalog.get? name = some t := htakes.catalog ▸ ht
    obtain ⟨before, hbefore, hshown⟩ := shown_settle hs ht
    obtain ⟨after, hafter, hshown'⟩ := shown_settle hs'.sound ht'
    refine ⟨before, after, hbefore, hafter, fun id d => ?_⟩
    rw [hshown', htakes.foreseen (hs.indexer.catalog.has ht), hfilter]
    split
    next r => exact ⟨eq_ok_of_toOption, fun hd => by rw [hd]; rfl⟩
    next => exact (hshown id d).symm

section Targets

variable {c : Catalog}

theorem of_mapM_require (hc : c.Sound) {names : List String}
    (hn : ∀ name ∈ names, tableName name = name) {tables : List Table}
    (h : names.mapM c.require = .ok tables) :
    tables.map (·.name) = names ∧ ∀ t ∈ tables, c.get? t.name = some t := by
  induction names generalizing tables with
  | nil => cases h; exact ⟨rfl, nofun⟩
  | cons name rest ih =>
    rw [List.forall_mem_cons] at hn
    rw [List.mapM_cons] at h
    obtain ⟨t, ht, h⟩ := bind_eq_ok.1 h
    obtain ⟨ts, hts, h⟩ := bind_eq_ok.1 h
    cases h
    have hget := Catalog.get?_of_require ht
    have hname : t.name = name := (hc.get? hget).2.2.1.trans hn.1
    obtain ⟨hnames, htables⟩ := ih hn.2 hts
    rw [List.map_cons, hname, hnames, List.forall_mem_cons, hname]
    exact ⟨rfl, hget, htables⟩

theorem mem_targets {name : String} :
    name ∈ targets records ↔ ∃ r ∈ records, tableName r.table = name := by
  rw [targets, List.mem_eraseDups, List.mem_map]

theorem nodup_targets (records : List Record) : (targets records).Nodup := nodup_eraseDups _

theorem tablesOf_eq_ok (hs : s.Sound) {tables : List Table} (h : tablesOf records s = .ok tables) :
    tables.map (·.name) = targets records ∧ ∀ t ∈ tables, s.catalog.get? t.name = some t := by
  refine of_mapM_require hs.indexer.catalog (fun name hname => ?_) h
  obtain ⟨r, -, rfl⟩ := mem_targets.1 hname
  exact tableName_tableName r.table

theorem exists_get?_of_tablesOf (hs : s.Sound) {tables : List Table}
    (h : tablesOf records s = .ok tables) {r : Record} (hr : r ∈ records) :
    ∃ t ∈ tables, t.name = tableName r.table ∧ s.catalog.get? r.table = some t := by
  obtain ⟨hnames, htables⟩ := tablesOf_eq_ok hs h
  have hmem : tableName r.table ∈ tables.map (·.name) := hnames ▸ mem_targets.2 ⟨r, hr, rfl⟩
  obtain ⟨t, ht, hname⟩ := List.mem_map.1 hmem
  have htable : tableName r.table = tableName t.name := by rw [hname, tableName_tableName]
  exact ⟨t, ht, hname, (Catalog.get?_eq_of_tableName htable).trans (htables t ht)⟩

theorem exists_of_tablesOf_error {e : Error} (h : tablesOf records s = .error e) :
    ∃ r ∈ records, s.catalog.get? r.table = none ∧ e = .noTable (tableName r.table) := by
  obtain ⟨name, hname, he⟩ := exists_of_mapM_eq_error h
  obtain ⟨r, hr, rfl⟩ := mem_targets.1 hname
  rw [Catalog.require] at he
  split at he
  next => cases he
  next hnone =>
    cases he
    rw [tableName_tableName]
    exact ⟨r, hr, (Catalog.get?_eq_of_tableName (tableName_tableName r.table)).symm.trans hnone, rfl⟩

end Targets

def Resolves (s : Service) (r : Record) : Prop :=
  ∃ t identity, s.catalog.get? r.table = some t ∧ Identity.ofRecord t.schema r = .ok identity

/-- A put that ends at a table with a record whose key is missing. -/
structure EndsAt (s s' : Service) (records : List Record) (done : List String) (r : Record)
    (key : String) (ids : List String) : Prop where
  order : done ++ [tableName r.table] <+: targets records
  resolved : ∀ r ∈ records, tableName r.table ∈ done → s.Resolves r
  mem : r ∈ records
  missing : ∃ t, s.catalog.get? r.table = some t ∧
    Identity.ofRecord t.schema r = .error (.missingKey key)
  took : s.Took s' (records.filter fun r => tableName r.table ∈ done) ids

theorem get?_of_table_eq (ht : s.catalog.get? t.name = some t) {r : Record}
    (hr : tableName r.table = t.name) : s.catalog.get? r.table = some t :=
  (Catalog.get?_eq_of_tableName (by rw [← hr, tableName_tableName])).trans ht

theorem names_iff_resolves (ht : s.catalog.get? t.name = some t) :
    Names records t ↔ ∀ r ∈ records, tableName r.table = t.name → s.Resolves r := by
  refine forall₂_congr fun r _ => forall_congr' fun hr => ?_
  have hget := get?_of_table_eq ht hr
  constructor
  · intro ⟨identity, hid⟩
    exact ⟨t, identity, hget, hid⟩
  · intro ⟨t', identity, ht', hid⟩
    cases hget.symm.trans ht'
    exact ⟨identity, hid⟩

theorem exists_first {α : Type u} {l : List α} {p : α → Prop} (h : ∃ a ∈ l, p a) :
    ∃ before a later, l = before ++ a :: later ∧ (∀ b ∈ before, ¬p b) ∧ p a := by
  classical
  obtain ⟨a, ha, hp⟩ := h
  obtain ⟨b, hb⟩ := Option.isSome_iff_exists.1
    (List.find?_isSome.2 ⟨a, ha, decide_eq_true hp⟩ : (l.find? (decide <| p ·)).isSome)
  obtain ⟨hpb, before, later, hl, hbefore⟩ := List.find?_eq_some_iff_append.1 hb
  refine ⟨before, b, later, hl, fun b' hb' => ?_, of_decide_eq_true hpb⟩
  simpa using hbefore b' hb'

variable {g : List Happening}

theorem Kept.put_noTable (h : s.Kept g) (hr : ∃ r ∈ records, s.catalog.get? r.table = none) :
    ∃ r ∈ records, s.catalog.get? r.table = none ∧
      (Service.put records).perform s = (.error (.noTable (tableName r.table)), s) := by
  rw [perform_put h.sound]
  cases htables : tablesOf records s with
  | error e =>
    obtain ⟨r, hmem, hnone, rfl⟩ := exists_of_tablesOf_error htables
    exact ⟨r, hmem, hnone, rfl⟩
  | ok tables =>
    obtain ⟨r, hmem, hnone⟩ := hr
    obtain ⟨t, -, -, ht⟩ := exists_get?_of_tablesOf h.sound htables hmem
    cases hnone.symm.trans ht

theorem Kept.put_ok (h : s.Kept g) (hr : ∀ r ∈ records, s.Resolves r) :
    ∃ ids s', (Service.put records).perform s = (.ok ids, s') ∧ s.Took s' records ids := by
  rw [perform_put h.sound]
  cases htables : tablesOf records s with
  | error e =>
    obtain ⟨r, hmem, hnone, -⟩ := exists_of_tablesOf_error htables
    obtain ⟨t, -, ht, -⟩ := hr r hmem
    cases hnone.symm.trans ht
  | ok tables =>
    obtain ⟨hnames, hget⟩ := tablesOf_eq_ok h.sound htables
    obtain ⟨batches, named, s', hperform, hflatten, hwent⟩ :=
      h.putTables (fun t ht => ⟨_, hget t ht⟩) fun t ht =>
        (names_iff_resolves (hget t ht)).2 fun r hmem _ => hr r hmem
    rw [hnames] at hwent
    have htook := hwent.took h.sound (nodup_targets records)
    have hall : (records.filter fun r => tableName r.table ∈ targets records) = records :=
      List.filter_eq_self.2 fun r hmem => decide_eq_true (mem_targets.2 ⟨r, hmem, rfl⟩)
    rw [hall, ← hflatten] at htook
    exact ⟨_, s', by simp only [hperform, Except.map], htook⟩

theorem Kept.put_missing (h : s.Kept g) (ht : ∀ r ∈ records, s.catalog.get? r.table ≠ none)
    (hr : ∃ r ∈ records, ¬s.Resolves r) :
    ∃ done r key ids s', (Service.put records).perform s = (.error (.missingKey key), s') ∧
      s.EndsAt s' records done r key ids := by
  rw [perform_put h.sound]
  cases htables : tablesOf records s with
  | error e =>
    obtain ⟨r, hmem, hnone, -⟩ := exists_of_tablesOf_error htables
    exact absurd hnone (ht r hmem)
  | ok tables =>
    obtain ⟨hnames, hget⟩ := tablesOf_eq_ok h.sound htables
    have hfirst : ∃ t ∈ tables, ¬Names records t := by
      obtain ⟨r, hmem, hnot⟩ := hr
      obtain ⟨t, htmem, hname, -⟩ := exists_get?_of_tablesOf h.sound htables hmem
      exact ⟨t, htmem, fun hn => hnot ((names_iff_resolves (hget t htmem)).1 hn r hmem hname.symm)⟩
    obtain ⟨before, t, later, rfl, hbefore, hnot⟩ := exists_first hfirst
    have hgett := hget t (List.mem_append_right _ (.head _))
    have hgetb : ∀ u ∈ before, s.catalog.get? u.name = some u := fun u hu =>
      hget u (List.mem_append_left _ hu)
    obtain ⟨r, hmem, key, named, s', htable, hid, hperform, hwent⟩ := h.putTables_error later
      (fun u hu => ⟨_, hgetb u hu⟩) hgett (fun u hu => not_not.1 (hbefore u hu)) hnot
    rw [List.map_append, List.map_cons] at hnames
    have hnodup := nodup_targets records
    rw [← hnames, List.nodup_append] at hnodup
    refine ⟨before.map (·.name), r, key, _, s', by simp only [hperform, Except.map], ⟨?_,
      fun r hmem hdone => ?_, hmem, ⟨t, get?_of_table_eq hgett htable, hid⟩,
      hwent.took h.sound hnodup.1⟩⟩
    · rw [htable, ← hnames]
      exact ⟨later.map (·.name), by rw [List.append_assoc]; rfl⟩
    · obtain ⟨u, hu, hname⟩ := List.mem_map.1 hdone
      exact (names_iff_resolves (hgetb u hu)).1 (not_not.1 (hbefore u hu)) r hmem hname.symm

/-- Puts go table by table, up to the first one with a record that has no key. -/
theorem put_by_table {config : Config} {windows : Bool} (h : Service.start config windows = .ok s)
    (moves : List Move) (records : List Record) :
    let before := s.after moves
    ((∃ r ∈ records, before.catalog.get? r.table = none) →
      ∃ r ∈ records, before.catalog.get? r.table = none ∧
        (put records).perform before = (.error (.noTable (tableName r.table)), before)) ∧
    ((∀ r ∈ records, before.catalog.get? r.table ≠ none) → (∃ r ∈ records, ¬before.Resolves r) →
      ∃ done r key ids after, (put records).perform before = (.error (.missingKey key), after) ∧
        before.EndsAt after records done r key ids) ∧
    ((∀ r ∈ records, before.Resolves r) → ∃ ids after,
      (put records).perform before = (.ok ids, after)) ∧
    ∀ ids after, (put records).perform before = (.ok ids, after) → before.Took after records ids := by
  have hkept := (Kept.start h).steps (steps_after (.start h) moves)
  refine ⟨hkept.put_noTable, hkept.put_missing, fun hr => ?_, fun ids after hput => ?_⟩
  · obtain ⟨ids, after, hput, -⟩ := hkept.put_ok hr
    exact ⟨ids, after, hput⟩
  · have htables : ∀ r ∈ records, (s.after moves).catalog.get? r.table ≠ none := fun r hr hnone => by
      obtain ⟨_, -, -, herror⟩ := hkept.put_noTable ⟨r, hr, hnone⟩
      cases herror.symm.trans hput
    have hresolves : ∀ r ∈ records, (s.after moves).Resolves r := fun r hr => by
      by_contra hnot
      obtain ⟨_, _, _, _, _, herror, -⟩ := hkept.put_missing htables ⟨r, hr, hnot⟩
      cases herror.symm.trans hput
    obtain ⟨ids', after', hput', htook⟩ := hkept.put_ok hresolves
    cases hput.symm.trans hput'
    exact htook

def twoTables : List Move :=
  [.ask (.createTable "t"), .ask (.createTable "u"), .ask (.setSchema "u" ⟨[], ["k"]⟩)]

def sameIdentity : List Record :=
  [⟨"1", "t", 0, .ofList [("x", .string "a")]⟩, ⟨"1", " T ", 5, .ofList [("x", .string "b")]⟩]

def withoutKey : Record := ⟨"", "u", 0, .empty⟩

theorem put_by_table_sameIdentity : ∃ s : Service, Service.start oneShard true = .ok s ∧
    (∃ after, (put sameIdentity).perform (s.after twoTables) = (.ok ["1", "1"], after) ∧
      (s.after twoTables).Took after sameIdentity ["1", "1"]) ∧
    ∃ done r key ids after, (put (sameIdentity ++ [withoutKey])).perform (s.after twoTables) =
        (.error (.missingKey key), after) ∧
      (s.after twoTables).EndsAt after (sameIdentity ++ [withoutKey]) done r key ids := by
  have hb : (Service.start oneShard true).toOption.any fun s =>
      ((put sameIdentity).perform (s.after twoTables)).1.toOption = some ["1", "1"] ∧
      ((sameIdentity ++ [withoutKey]).all fun r => ((s.after twoTables).catalog.get? r.table).isSome) ∧
      (((s.after twoTables).catalog.get? "u").all fun t =>
        (Identity.ofRecord t.schema withoutKey).toOption.isNone) := by
    decide +kernel
  cases hs : Service.start oneShard true with
  | error e => rw [hs] at hb; cases hb
  | ok s =>
    rw [hs, Except.toOption, Option.any_some] at hb
    obtain ⟨hanswer, htables, hmissing⟩ := of_decide_eq_true hb
    refine ⟨s, rfl, ?_, ?_⟩
    · have hput : (put sameIdentity).perform (s.after twoTables) =
          (.ok ["1", "1"], ((put sameIdentity).perform (s.after twoTables)).2) :=
        Prod.ext (eq_ok_of_toOption hanswer) rfl
      exact ⟨_, hput, (put_by_table hs twoTables sameIdentity).2.2.2 _ _ hput⟩
    · have hnot : ¬(s.after twoTables).Resolves withoutKey := by
        intro ⟨t, identity, ht, hid⟩
        rw [show withoutKey.table = "u" from rfl] at ht
        rw [ht, Option.all_some, hid] at hmissing
        cases hmissing
      exact (put_by_table hs twoTables (sameIdentity ++ [withoutKey])).2.1
        (fun r hr hnone => by
          have hsome := List.all_eq_true.1 htables r hr
          rw [hnone] at hsome
          cases hsome)
        ⟨withoutKey, List.mem_append_right _ (.head _), hnot⟩

end Corpus.Service
