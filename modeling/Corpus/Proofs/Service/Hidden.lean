import Corpus.Proofs.Queue.Alike
import Corpus.Proofs.Service.Blind
import Corpus.Proofs.Store.Bare

/-! Services whose records differ in hidden columns alone: as far as searches can tell, they are the same. -/

namespace Corpus

open Corpus.Action

theorem Catalog.Sound.schemaOf_eq {c : Catalog} (h : c.Sound) {name : String} {t : Table}
    (ht : c.get? name = some t) : c.schemaOf t.epoch = t.schema := by
  rw [Catalog.schemaOf, (h.get? ht).2.1]
  rfl

namespace Request

def plain : Request → Bool
  | .createTable _ | .dropTable _ | .setSchema .. | .put _ => false
  | _ => true

def searches : Request → Bool
  | .search .. | .searchCount .. | .drillSearch _ | .drillCount _ | .drillRanges _
  | .drillCategories _ => true
  | _ => false

end Request

namespace Service

/-- The stores differ in values alone, the indexers are related, and all else is the same. -/
structure Like (R : Indexer → Indexer → Prop) (analyzers : Analyzers) (s s' : Service) : Prop where
  indexer : R s.indexer s'.indexer
  store : s.store.Alike s'.store
  left : s.analyzers = analyzers
  right : s'.analyzers = analyzers
  cache : s'.cache = s.cache

variable {R : Indexer → Indexer → Prop} {analyzers : Analyzers} {s s' : Service}

theorem Like.sameTables (hR : Indexer.Link R) (h : s.Like R analyzers s') : s.catalog.SameTables s'.catalog :=
  hR.tables h.indexer

theorem Like.get?_cases (hR : Indexer.Link R) (h : s.Like R analyzers s') (table : String) :
    (s.catalog.get? table = none ∧ s'.catalog.get? table = none) ∨
      ∃ t t', s.catalog.get? table = some t ∧ s'.catalog.get? table = some t' ∧ t'.bare = t.bare := by
  have hbare := (h.sameTables hR).map_bare_get? table
  cases ht : s.catalog.get? table with
  | none =>
    rw [ht, Option.map_none, Option.map_eq_none_iff] at hbare
    exact .inl ⟨rfl, hbare⟩
  | some t =>
    rw [ht, Option.map_some, Option.map_eq_some_iff] at hbare
    obtain ⟨t', ht', hb⟩ := hbare
    exact .inr ⟨t, t', rfl, ht', hb⟩

theorem Like.acceptAll (hR : Indexer.Link R) (h : s.Like R analyzers s') (hs : s.Sound) {table : String}
    {t t' : Table} (ht : s.catalog.get? table = some t) (hb : t'.bare = t.bare) {store store' : Store}
    (hstore : store.Alike store') {changes changes' : List Change}
    (hc : List.Forall₂ (Change.Alike t.schema) changes changes') :
    Like R analyzers
      { s with
        store
        indexer := { s.indexer with queues := s.indexer.queues.acceptAll t changes } }
      { s' with
        store := store'
        indexer := { s'.indexer with queues := s'.indexer.queues.acceptAll t' changes' } } where
  indexer := hR.acceptAll h.indexer hb (hs.indexer.catalog.schemaOf_eq ht) hc
  store := hstore
  left := h.left
  right := h.right
  cache := h.cache

theorem Like.deleteBy (hR : Indexer.Link R) (h : s.Like R analyzers s') (hs : s.Sound) (hs' : s'.Sound)
    (delete : Store → String → Except Error (List String × Store))
    (hdelete : ∀ {store store' : Store}, store.Alike store' → ∀ name,
      ((delete store name).map fun p => (p.1, p.2.bare)) =
        (delete store' name).map fun p => (p.1, p.2.bare)) (table : String) :
    Like R analyzers ((Service.deleteBy delete table).perform s).2
      ((Service.deleteBy delete table).perform s').2 := by
  rw [perform_deleteBy hs, perform_deleteBy hs']
  rcases h.get?_cases hR table with ⟨hn, hn'⟩ | ⟨t, t', ht, ht', hb⟩
  · rw [hn, hn']
    exact h
  · have hname : t'.name = t.name := (congrArg Table.name hb :)
    simp only [ht, ht', hname]
    rcases map_eq_map (hdelete h.store t.name) with ⟨e, he, he'⟩ | ⟨p, p', hp, hp', heq⟩
    · simp only [he, he']
      exact h
    · obtain ⟨deleted, store⟩ := p
      obtain ⟨deleted', store'⟩ := p'
      obtain ⟨rfl, hstore⟩ := Prod.mk.inj heq
      simp only [hp, hp']
      exact h.acceptAll hR hs ht hb hstore (List.forall₂_same.2 fun c _ => .same c)

theorem Like.clearIndex (hR : Indexer.Link R) (h : s.Like R analyzers s') (hs : s.Sound) (hs' : s'.Sound)
    (table : String) :
    Like R analyzers ((Service.clearIndex table).perform s).2 ((Service.clearIndex table).perform s').2 := by
  rw [perform_clearIndex hs.alive, perform_clearIndex hs'.alive]
  rcases h.get?_cases hR table with ⟨hn, hn'⟩ | ⟨t, t', ht, ht', hb⟩
  · rw [hn, hn']
    exact h
  · simp only [ht, ht', Queues.sendAll_eq hs.indexer.closed, Queues.sendAll_eq hs'.indexer.closed]
    have hsent := h.acceptAll hR hs ht hb h.store (.cons (.same .clear) .nil)
    exact ⟨hsent.indexer, hsent.store, hsent.left, hsent.right, congrArg Cache.clear hsent.cache⟩

theorem perform_identifyAll_named {t : Table} {records : List (Record × Nat)}
    (h : ∀ a ∈ records, a.1.id ≠ "") (s : Service) :
    (identifyAll t records).perform s =
      (.ok (records.map fun a => ({ a.1 with table := t.name }, a.2)), s) := by
  induction records with
  | nil => rfl
  | cons a rest ih =>
    obtain ⟨r, place⟩ := a
    rw [List.forall_mem_cons] at h
    have hid : Identity.ofRecord t.schema r = .ok (.given r.id) := if_pos h.1
    rw [perform_identifyAll_cons, perform_identify_given hid]
    simp only [ih h.2]
    rfl

theorem perform_putBatch_named (hs : s.Sound) {table : String} {t : Table}
    (ht : s.catalog.get? table = some t) {records : List (Record × Nat)}
    (h : ∀ a ∈ records, a.1.id ≠ "") :
    (putBatch t records).perform s =
      match s.store.put t.name (records.map fun a => { a.1 with table := t.name }) with
      | .error e => (.error e, s)
      | .ok store => (.ok (records.map fun a => (a.2, a.1.id)), { s with
          store
          indexer := { s.indexer with
            queues := s.indexer.queues.acceptAll t
              (records.map fun a => .upsert { a.1 with table := t.name }) } }) := by
  rw [perform_putBatch hs ht, perform_identifyAll_named h]
  simp only [List.map_map]
  rfl

def AlikeAt (schema : Schema) (a a' : Record × Nat) : Prop := a.1.Alike schema a'.1 ∧ a'.2 = a.2

theorem named_of_alikeAt {schema : Schema} {records records' : List (Record × Nat)}
    (h : List.Forall₂ (AlikeAt schema) records records') :
    (∀ a ∈ records, a.1.id ≠ "") ∧ ∀ a ∈ records', a.1.id ≠ "" := by
  induction h with
  | nil => exact ⟨nofun, nofun⟩
  | cons hab _ ih =>
    rw [List.forall_mem_cons, List.forall_mem_cons, hab.1.id]
    exact ⟨⟨hab.1.named, ih.1⟩, hab.1.named, ih.2⟩

theorem map_eq_map_of_forall₂ {α β γ : Type} {f : α → γ} {g : β → γ} {as : List α} {bs : List β}
    (h : List.Forall₂ (fun a b => f a = g b) as bs) : as.map f = bs.map g := by
  induction h with
  | nil => rfl
  | cons hab _ ih => rw [List.map_cons, List.map_cons, hab, ih]

theorem Like.putBatch (hR : Indexer.Link R) (h : s.Like R analyzers s') (hs : s.Sound) (hs' : s'.Sound)
    {table table' : String} {t t' : Table} (ht : s.catalog.get? table = some t)
    (ht' : s'.catalog.get? table' = some t') (hb : t'.bare = t.bare)
    {records records' : List (Record × Nat)}
    (hr : List.Forall₂ (AlikeAt t.schema) records records') :
    ((putBatch t records).perform s).1 = ((putBatch t' records').perform s').1 ∧
      Like R analyzers ((putBatch t records).perform s).2 ((putBatch t' records').perform s').2 := by
  have hname : t'.name = t.name := (congrArg Table.name hb :)
  obtain ⟨hnamed, hnamed'⟩ := named_of_alikeAt hr
  have hbare : (records.map fun a => { a.1 with table := t.name }).map Record.bare =
      (records'.map fun a => { a.1 with table := t.name }).map Record.bare := by
    rw [List.map_map, List.map_map]
    refine map_eq_map_of_forall₂ (hr.imp fun a a' h => ?_)
    simp only [Function.comp_apply, Record.bare, h.1.id, h.1.timestamp]
  have hanswer : (records.map fun a => (a.2, a.1.id)) = records'.map fun a => (a.2, a.1.id) :=
    map_eq_map_of_forall₂ (hr.imp fun a a' h => by rw [h.1.id, h.2])
  have hchanges : List.Forall₂ (Change.Alike t.schema)
      (records.map fun a => .upsert { a.1 with table := t.name })
      (records'.map fun a => .upsert { a.1 with table := t.name }) :=
    List.forall₂_map_left_iff.2 (List.forall₂_map_right_iff.2
      (hr.imp fun a a' h => .upsert (h.1.setTable t.name)))
  rw [perform_putBatch_named hs ht hnamed, perform_putBatch_named hs' ht' hnamed', hname]
  rcases map_eq_map (h.store.put t.name hbare) with ⟨e, he, he'⟩ | ⟨store, store', hp, hp', hstore⟩
  · simp only [he, he']
    exact ⟨trivial, h⟩
  · simp only [hp, hp', hanswer]
    exact ⟨trivial, h.acceptAll hR hs ht hb hstore hchanges⟩

theorem forall₂_filter {α β : Type} {Rel : α → β → Prop} {p : α → Bool} {q : β → Bool} {as : List α}
    {bs : List β} (h : List.Forall₂ Rel as bs) (hpq : ∀ a b, Rel a b → q b = p a) :
    List.Forall₂ (fun a b => Rel a b ∧ p a) (as.filter p) (bs.filter q) := by
  induction h with
  | nil => exact .nil
  | @cons a b as bs hab _ ih =>
    rw [List.filter_cons, List.filter_cons, hpq a b hab]
    split
    next hp => exact .cons ⟨hab, hp⟩ ih
    next => exact ih

theorem forall₂_zipIdx {α β : Type} {Rel : α → β → Prop} {as : List α} {bs : List β}
    (h : List.Forall₂ Rel as bs) (n : Nat) :
    List.Forall₂ (fun a b => Rel a.1 b.1 ∧ b.2 = a.2) (as.zipIdx n) (bs.zipIdx n) := by
  induction h generalizing n with
  | nil => exact .nil
  | cons hab _ ih => exact .cons ⟨hab, rfl⟩ (ih (n + 1))

def AlikeIn (c : Catalog) (r r' : Record) : Prop := r.Alike (c.schemaOrEmpty r.table) r'

theorem forall₂_batch {c : Catalog} (hc : c.Sound) {records records' : List Record}
    (hr : List.Forall₂ (AlikeIn c) records records') {name : String} {t t' : Table}
    (ht : c.get? name = some t) (hb : t'.bare = t.bare) :
    List.Forall₂ (AlikeAt t.schema)
      (records.zipIdx.filter fun (r, _) => tableName r.table = t.name)
      (records'.zipIdx.filter fun (r, _) => tableName r.table = t'.name) := by
  have hname : t'.name = t.name := (congrArg Table.name hb :)
  refine (forall₂_filter (forall₂_zipIdx hr 0) fun a b hab => ?_).imp fun a b hab => ?_
  · simp only [hab.1.table, hname]
  · obtain ⟨⟨halike, hplace⟩, htable⟩ := hab
    have hget : c.get? a.1.table = some t := by
      rw [← ht]
      exact Catalog.get?_eq_of_tableName ((of_decide_eq_true htable).trans (hc.get? ht).2.2.1)
    have hschema : c.schemaOrEmpty a.1.table = t.schema := by
      rw [Catalog.schemaOrEmpty, hget]
      rfl
    exact ⟨hschema ▸ halike, hplace⟩

theorem Like.putTables (hR : Indexer.Link R) (h : s.Like R analyzers s') {records records' : List Record}
    {ts ts' : List Table} (htables : List.Forall₂ (fun t t' => t'.bare = t.bare) ts ts') (hs : s.Sound)
    (hs' : s'.Sound) (hr : List.Forall₂ (AlikeIn s.catalog) records records')
    (ht : ∀ t ∈ ts, ∃ name, s.catalog.get? name = some t)
    (ht' : ∀ t ∈ ts', ∃ name, s'.catalog.get? name = some t) :
    Like R analyzers ((putTables records ts).perform s).2 ((putTables records' ts').perform s').2 := by
  induction htables generalizing s s' with
  | nil => exact h
  | @cons t t' ts ts' hb _ ih =>
    obtain ⟨name, hname⟩ := ht t (.head _)
    obtain ⟨name', hname'⟩ := ht' t' (.head _)
    have hbatch := forall₂_batch hs.indexer.catalog hr hname hb
    obtain ⟨hanswer, hlike⟩ := h.putBatch hR hs hs' hname hname' hb hbatch
    obtain ⟨hsteps, hcat⟩ := steps_putBatch hs hname
      (records.zipIdx.filter fun (r, _) => tableName r.table = t.name)
    obtain ⟨hsteps', hcat'⟩ := steps_putBatch hs' hname'
      (records'.zipIdx.filter fun (r, _) => tableName r.table = t'.name)
    rw [Service.putTables, Service.putTables, List.mapM_cons, List.mapM_cons, perform_bind, perform_bind]
    generalize (Service.putBatch t _).perform s = p at hanswer hlike hsteps hcat ⊢
    generalize (Service.putBatch t' _).perform s' = p' at hanswer hlike hsteps' hcat' ⊢
    obtain ⟨answer, u⟩ := p
    obtain ⟨answer', u'⟩ := p'
    obtain rfl : answer = answer' := hanswer
    cases answer with
    | error e => exact hlike
    | ok ids =>
      dsimp only at hlike hsteps hcat hsteps' hcat' ⊢
      rw [bind_pure_comp, bind_pure_comp, perform_map, perform_map]
      refine ih hlike (hs.steps hsteps).1 (hs'.steps hsteps').1 (hcat.symm ▸ hr) ?_ ?_
      · intro w hw
        rw [hcat]
        exact ht w (.tail _ hw)
      · intro w hw
        rw [hcat']
        exact ht' w (.tail _ hw)

theorem mapM_cases {α β γ : Type} {ε : Type} {f : α → Except ε β} {g : α → Except ε γ}
    {Rel : β → γ → Prop}
    (h : ∀ a, (∃ e, f a = .error e ∧ g a = .error e) ∨ ∃ b b', f a = .ok b ∧ g a = .ok b' ∧ Rel b b')
    (l : List α) :
    (∃ e, l.mapM f = .error e ∧ l.mapM g = .error e) ∨
      ∃ bs bs', l.mapM f = .ok bs ∧ l.mapM g = .ok bs' ∧ List.Forall₂ Rel bs bs' := by
  induction l with
  | nil => exact .inr ⟨[], [], rfl, rfl, .nil⟩
  | cons a rest ih =>
    rw [List.mapM_cons, List.mapM_cons]
    rcases h a with ⟨e, hf, hg⟩ | ⟨b, b', hf, hg, hb⟩
    · exact .inl ⟨e, by rw [hf]; rfl, by rw [hg]; rfl⟩
    · rw [hf, hg]
      rcases ih with ⟨e, hf, hg⟩ | ⟨bs, bs', hf, hg, hbs⟩
      · exact .inl ⟨e, by rw [hf]; rfl, by rw [hg]; rfl⟩
      · exact .inr ⟨b :: bs, b' :: bs', by rw [hf]; rfl, by rw [hg]; rfl, .cons hb hbs⟩

theorem Like.tablesOf_cases (hR : Indexer.Link R) (h : s.Like R analyzers s') {records records' : List Record}
    (hr : List.Forall₂ (AlikeIn s.catalog) records records') :
    (∃ e, tablesOf records s = .error e ∧ tablesOf records' s' = .error e) ∨
      ∃ ts ts', tablesOf records s = .ok ts ∧ tablesOf records' s' = .ok ts' ∧
        List.Forall₂ (fun t t' => t'.bare = t.bare) ts ts' := by
  have hnames : records.map (tableName ·.table) = records'.map (tableName ·.table) :=
    map_eq_map_of_forall₂ (hr.imp fun r r' h => by rw [h.table])
  rw [tablesOf, tablesOf, hnames]
  refine mapM_cases (fun name => ?_) _
  rw [Catalog.require, Catalog.require]
  rcases h.get?_cases hR name with ⟨hn, hn'⟩ | ⟨t, t', ht, ht', hb⟩
  · exact .inl ⟨_, by rw [hn], by rw [hn']⟩
  · exact .inr ⟨t, t', by rw [ht], by rw [ht'], hb⟩

theorem Like.put (hR : Indexer.Link R) (h : s.Like R analyzers s') (hs : s.Sound) (hs' : s'.Sound)
    {records records' : List Record} (hr : List.Forall₂ (AlikeIn s.catalog) records records') :
    Like R analyzers ((Service.put records).perform s).2 ((Service.put records').perform s').2 := by
  have hfound {u : Service} {rs : List Record} {ts : List Table} (h : tablesOf rs u = .ok ts) :
      ∀ t ∈ ts, ∃ name, u.catalog.get? name = some t := fun t ht =>
    have ⟨name, _, hname⟩ := exists_of_mem_mapM_eq_ok h t ht
    ⟨name, Catalog.get?_of_require hname⟩
  rw [perform_put hs, perform_put hs']
  rcases h.tablesOf_cases hR hr with ⟨e, he, he'⟩ | ⟨ts, ts', ht, ht', htables⟩
  · simp only [he, he']
    exact h
  · simp only [ht, ht']
    exact h.putTables hR htables hs hs' hr (hfound ht) (hfound ht')

end Service

namespace Request

/-- Requests that are the same but for what the schemas of the tables hide. -/
inductive Alike (c : Catalog) : Request → Request → Prop
  | put {records records' : List Record} (h : List.Forall₂ (Service.AlikeIn c) records records') :
    Alike c (.put records) (.put records')
  | same {r : Request} (h : r.plain) : Alike c r r

variable {c d : Catalog} {r r' : Request}

theorem Alike.of_sameTables (h : r.Alike c r') (hc : c.SameTables d) : r.Alike d r' := by
  cases h with
  | put h =>
    refine .put (h.imp fun r r' hr => ?_)
    rw [Service.AlikeIn, hc.schemaOrEmpty_eq]
    exact hr
  | same h => exact .same h

end Request

namespace Service

variable {R : Indexer → Indexer → Prop} {analyzers : Analyzers} {s s' : Service}

theorem Like.ask (hR : Indexer.Link R) (h : s.Like R analyzers s') (hs : s.Sound) (hs' : s'.Sound)
    {r r' : Request} (hr : r.Alike s.catalog r') (hl : r.looks = false) :
    Like R analyzers (r.run.perform s).2 (r'.run.perform s').2 := by
  have still {a : Action Response} (ha : Still a) : Like R analyzers (a.perform s).2 (a.perform s').2 := by
    rw [ha s, ha s']
    exact h
  cases hr with
  | put hrecords =>
    rw [Request.run, Request.run, perform_map, perform_map]
    exact h.put hR hs hs' hrecords
  | same hp =>
    cases r with
    | createTable | dropTable | setSchema | put => cases hp
    | search | drillSearch => cases hl
    | deleteTimes table lower upper =>
      rw [Request.run, snd_perform_bind_pure, snd_perform_bind_pure]
      exact h.deleteBy hR hs hs' (fun store name => store.deleteTimes name lower upper)
        (fun hstore name => hstore.deleteTimes name lower upper) table
    | deleteIds table ids =>
      rw [Request.run, snd_perform_bind_pure, snd_perform_bind_pure]
      exact h.deleteBy hR hs hs' (fun store name => store.deleteIds name ids)
        (fun hstore name => hstore.deleteIds name ids) table
    | clearIndex table =>
      rw [Request.run, snd_perform_bind_pure, snd_perform_bind_pure]
      exact h.clearIndex hR hs hs' table
    | tableExists | tables | getSchema | planTimes | planIds | count | searchCount | drillCount
    | drillRanges | drillCategories => exact still (still_run rfl)

end Service

end Corpus
