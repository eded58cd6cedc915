import Corpus.Proofs.Index.Document
import Corpus.Proofs.Queue.Advance
import Corpus.Proofs.Queue.Settling
import Mathlib.Data.List.Forall2

/-! Two indexers whose events differ in hidden columns alone.  If their batches are the same their catalogs
are, and whatever their batches are, they will have the same catalog once nothing waits. -/

namespace Corpus

inductive Change.Alike (schema : Schema) : Change → Change → Prop
  | same (c : Change) : Alike schema c c
  | upsert {r r' : Record} (h : r.Alike schema r') : Alike schema (.upsert r) (.upsert r')

namespace Change.Alike

variable {schema : Schema} {c c' : Change}

theorem id?_eq (h : c.Alike schema c') : c'.id? = c.id? := by
  cases h with
  | same => rfl
  | upsert h => exact congrArg some h.id

theorem targets_eq (h : c.Alike schema c') (table : String) (shards : Nat) :
    c'.targets table shards = c.targets table shards := by
  rw [Change.targets, Change.targets, h.id?_eq]

theorem analyze_eq (h : c.Alike schema c') (analyzers : Analyzers) :
    c'.analyze schema analyzers = c.analyze schema analyzers := by
  cases h with
  | same => rfl
  | upsert h => exact congrArg some (Document.ofRecord_of_alike h)

theorem apply_eq (h : c.Alike schema c') (analysis : Option (Except Error Document)) :
    c'.apply analysis = c.apply analysis := by
  cases h with
  | same => rfl
  | upsert h =>
    funext s
    simp only [Change.apply, h.id]

end Change.Alike

structure Event.Alike (schemaOf : Nat → Schema) (v v' : Event) : Prop where
  table : v'.table = v.table
  epoch : v'.epoch = v.epoch
  change : v.change.Alike (schemaOf v.epoch) v'.change

theorem Event.Alike.analyze_eq {schemaOf : Nat → Schema} {v v' : Event} (h : v.Alike schemaOf v')
    (analyzers : Analyzers) :
    v'.change.analyze (schemaOf v'.epoch) analyzers = v.change.analyze (schemaOf v.epoch) analyzers := by
  rw [h.epoch, h.change.analyze_eq]

namespace Indexer

theorem follow_of_alike {schemaOf : Nat → Schema} {v v' : Event} (h : v.Alike schemaOf v') (shard : Nat)
    (c : Catalog) (analysis : Option (Except Error Document)) :
    follow shard c (v', analysis) = follow shard c (v, analysis) := by
  rw [follow, follow, h.epoch, h.change.apply_eq]

end Indexer

def Table.bare (t : Table) : Table := { t with shards := [] }

namespace Catalog

structure SameTables (c d : Catalog) : Prop where
  current : d.current = c.current
  tables : ∀ e, (d.tables.get? e).map Table.bare = (c.tables.get? e).map Table.bare

variable {analyzers : Analyzers} {c d : Catalog} {events : Nat → List Event}

theorem SameTables.refl (c : Catalog) : c.SameTables c := ⟨rfl, fun _ => rfl⟩

theorem SameTables.trans {e : Catalog} (h : c.SameTables d) (h' : d.SameTables e) : c.SameTables e :=
  ⟨h'.current.trans h.current, fun i => (h'.tables i).trans (h.tables i)⟩

theorem SameTables.symm (h : c.SameTables d) : d.SameTables c :=
  ⟨h.current.symm, fun i => (h.tables i).symm⟩

theorem SameTables.map_bare_get? (h : c.SameTables d) (name : String) :
    (d.get? name).map Table.bare = (c.get? name).map Table.bare := by
  rw [get?, get?, h.current]
  cases c.current.get? (tableName name) with
  | none => rfl
  | some e => exact h.tables e

theorem SameTables.schemaOrEmpty_eq (h : c.SameTables d) (name : String) :
    d.schemaOrEmpty name = c.schemaOrEmpty name := by
  have htable := congrArg (·.map Table.schema) (h.map_bare_get? name)
  simp only [Option.map_map] at htable
  exact congrArg (·.getD .empty) htable

theorem Advanced.sameTables (h : c.Advanced analyzers events d) : c.SameTables d where
  current := h.current
  tables e := by
    rw [h.tables, Option.map_map]
    rfl

theorem foldl_follow_of_alike {v v' : Event} (targets : List Nat) (h : v.Alike c.schemaOf v') :
    targets.foldl (fun c i =>
        Indexer.follow i c (v', v'.change.analyze (c.schemaOf v'.epoch) analyzers)) c =
      targets.foldl (fun c i =>
        Indexer.follow i c (v, v.change.analyze (c.schemaOf v.epoch) analyzers)) c := by
  induction targets generalizing c with
  | nil => rw [List.foldl_nil, List.foldl_nil]
  | cons i rest ih =>
    have hstep : Indexer.follow i c (v', v'.change.analyze (c.schemaOf v'.epoch) analyzers) =
        Indexer.follow i c (v, v.change.analyze (c.schemaOf v.epoch) analyzers) := by
      rw [h.analyze_eq, Indexer.follow_of_alike h]
    have hrest : v.Alike
        (Indexer.follow i c (v, v.change.analyze (c.schemaOf v.epoch) analyzers)).schemaOf v' := by
      rwa [schemaOf_follow]
    rw [List.foldl_cons, List.foldl_cons, hstep, ih hrest]

theorem followNow_of_alike {v v' : Event} (h : v.Alike c.schemaOf v') (shards : Nat) :
    c.followNow analyzers shards v' = c.followNow analyzers shards v := by
  rw [followNow, followNow, h.table, h.change.targets_eq]
  exact foldl_follow_of_alike _ h

theorem Advanced.rest {part rest : Nat → List Event} {e : Catalog}
    (h : c.Advanced analyzers (fun i => part i ++ rest i) e) (hd : c.Advanced analyzers part d) :
    d.Advanced analyzers rest e where
  shardCount := h.shardCount.trans hd.shardCount.symm
  nextEpoch := h.nextEpoch.trans hd.nextEpoch.symm
  current := h.current.trans hd.current.symm
  tables epoch := by
    rw [h.tables, hd.tables, Option.map_map]
    congr 1
    funext t
    have hshards : t.shards.advance t.schema analyzers
          (fun i => (part i ++ rest i).filter (·.epoch = epoch)) =
        (t.shards.advance t.schema analyzers fun i => (part i).filter (·.epoch = epoch)).advance
          t.schema analyzers fun i => (rest i).filter (·.epoch = epoch) := by
      refine List.ext_getElem? fun i => ?_
      rw [Shards.getElem?_advance, Shards.getElem?_advance, Shards.getElem?_advance, Option.map_map,
        List.filter_append]
      congr 1
      funext segment
      exact List.foldl_append
    rw [hshards]
    rfl

end Catalog

namespace Indexer

variable {analyzers : Analyzers} {x x' : Indexer} {d : Catalog}

/-- The catalog that there will be once nothing waits. -/
def Foresees (analyzers : Analyzers) (x : Indexer) (d : Catalog) : Prop :=
  x.catalog.Advanced analyzers (fun i => x.queues.waiting.getD i []) d

theorem getD_accept {q : Queues} (hq : 0 < q.shards) (v : Event) (i : Nat) :
    (q.accept v).waiting.getD i [] =
      if i ∈ v.change.targets v.table q.shards then q.waiting.getD i [] ++ [v]
      else q.waiting.getD i [] := by
  rw [List.getD_eq_getElem?_getD, Queues.getElem?_accept, List.getD_eq_getElem?_getD,
    show q.targets v = v.change.targets v.table q.shards from rfl]
  split
  next hi =>
    have hlt : i < q.waiting.length := Change.lt_of_mem_targets hq hi
    rw [List.getElem?_eq_getElem hlt]
    rfl
  next =>
    cases q.waiting[i]? <;> rfl

theorem Foresees.accept (h : x.Foresees analyzers d) (hq : 0 < x.queues.shards) (v : Event) :
    Foresees analyzers { x with queues := x.queues.accept v }
      (d.followNow analyzers x.queues.shards v) :=
  (h.followNow x.queues.shards v).congr fun i => (getD_accept hq v i).symm

theorem getD_waiting_step (analyzers : Analyzers) (x : Indexer) (limit shard i : Nat) :
    (x.step analyzers limit shard).queues.waiting.getD i [] =
      if i = shard then (x.queues.waiting.getD i []).drop limit else x.queues.waiting.getD i [] := by
  rw [waiting_step, List.getD_eq_getElem?_getD, List.getElem?_modify, List.getD_eq_getElem?_getD]
  by_cases hi : i = shard
  · subst hi
    cases x.queues.waiting[i]? <;> simp
  · simp [hi, Ne.symm hi]

theorem advanced_step (analyzers : Analyzers) (x : Indexer) (limit shard : Nat) :
    x.catalog.Advanced analyzers
      (fun i => if i = shard then (x.queues.waiting.getD i []).take limit else [])
      (x.step analyzers limit shard).catalog := by
  refine ((Catalog.Advanced.refl analyzers x.catalog).foldl_batch shard
    ((x.queues.waiting.getD shard []).take limit)).congr fun i => ?_
  by_cases hi : i = shard <;> simp [hi]

theorem Foresees.step (h : x.Foresees analyzers d) (limit shard : Nat) :
    (x.step analyzers limit shard).Foresees analyzers d := by
  refine Catalog.Advanced.rest (h.congr fun i => ?_) (advanced_step analyzers x limit shard)
  rw [getD_waiting_step]
  split
  next => exact (List.take_append_drop ..).symm
  next => rfl

theorem exists_foresees (analyzers : Analyzers) (x : Indexer) : ∃ d, x.Foresees analyzers d := by
  have hshards (shards : List Nat) (hn : shards.Nodup) : ∃ d, x.catalog.Advanced analyzers
      (fun i => if i ∈ shards then x.queues.waiting.getD i [] else []) d := by
    induction shards with
    | nil => exact ⟨x.catalog, .refl analyzers x.catalog⟩
    | cons i rest ih =>
      obtain ⟨hi, hrest⟩ := List.nodup_cons.1 hn
      obtain ⟨d, hd⟩ := ih hrest
      refine ⟨_, (hd.foldl_batch i (x.queues.waiting.getD i [])).congr fun j => ?_⟩
      by_cases hj : j = i
      · subst hj
        simp [hi]
      · simp [hj]
  obtain ⟨d, hd⟩ := hshards (List.range x.queues.waiting.length) List.nodup_range
  refine ⟨d, hd.congr fun i => ?_⟩
  rw [List.getD_eq_getElem?_getD]
  split
  next => rfl
  next hi =>
    rw [List.getElem?_eq_none (Nat.le_of_not_lt fun hlt => hi (List.mem_range.2 hlt))]
    rfl

theorem Foresees.eq_catalog (h : x.Foresees analyzers d) (hw : ∀ events ∈ x.queues.waiting, events = []) :
    d = x.catalog := by
  refine Catalog.Advanced.unique h ((Catalog.Advanced.refl analyzers x.catalog).congr fun i => ?_)
  rw [List.getD_eq_getElem?_getD]
  cases hi : x.queues.waiting[i]? with
  | none => rfl
  | some events => exact (hw events (List.mem_of_getElem? hi)).symm

structure Alike (x x' : Indexer) : Prop where
  catalog : x'.catalog = x.catalog
  shards : x'.queues.shards = x.queues.shards
  positive : 0 < x.queues.shards
  waiting : ∀ i, List.Forall₂ (Event.Alike x.catalog.schemaOf) (x.queues.waiting.getD i [])
    (x'.queues.waiting.getD i [])

structure Agrees (analyzers : Analyzers) (x x' : Indexer) : Prop where
  shards : x'.queues.shards = x.queues.shards
  positive : 0 < x.queues.shards
  foreseen : ∃ d, x.Foresees analyzers d ∧ x'.Foresees analyzers d

structure Link (R : Indexer → Indexer → Prop) : Prop where
  tables : ∀ {x x'}, R x x' → x.catalog.SameTables x'.catalog
  accept : ∀ {x x' v v'}, R x x' → v.Alike x.catalog.schemaOf v' →
    R { x with queues := x.queues.accept v } { x' with queues := x'.queues.accept v' }

theorem Link.acceptAll {R : Indexer → Indexer → Prop} (hR : Link R) (h : R x x') {t t' : Table}
    (ht : t'.bare = t.bare) (hs : x.catalog.schemaOf t.epoch = t.schema) {changes changes' : List Change}
    (hc : List.Forall₂ (Change.Alike t.schema) changes changes') :
    R { x with queues := x.queues.acceptAll t changes }
      { x' with queues := x'.queues.acceptAll t' changes' } := by
  have hname : t'.name = t.name := (congrArg Table.name ht :)
  have hepoch : t'.epoch = t.epoch := (congrArg Table.epoch ht :)
  induction hc generalizing x x' with
  | nil => exact h
  | @cons c c' _ _ hc _ ih =>
    have hv : Event.Alike x.catalog.schemaOf ⟨t.name, t.epoch, c⟩ ⟨t'.name, t'.epoch, c'⟩ :=
      ⟨hname, hepoch, hs.symm ▸ hc⟩
    exact ih (hR.accept h hv) hs

theorem link_alike : Link Alike where
  tables h := h.catalog ▸ .refl _
  accept {x x' v v'} h hv := by
    have hpos' : 0 < x'.queues.shards := h.shards ▸ h.positive
    refine ⟨h.catalog, ?_, ?_, fun i => ?_⟩
    · exact (x'.queues.shards_accept v').trans (h.shards.trans (x.queues.shards_accept v).symm)
    · exact Nat.lt_of_lt_of_eq h.positive (x.queues.shards_accept v).symm
    · rw [getD_accept h.positive, getD_accept hpos', hv.table, hv.change.targets_eq, h.shards]
      split
      next => exact List.rel_append (h.waiting i) (.cons hv .nil)
      next => exact h.waiting i

theorem link_agrees (analyzers : Analyzers) : Link (Agrees analyzers) where
  tables h := by
    obtain ⟨d, hx, hx'⟩ := h.foreseen
    exact (Catalog.Advanced.sameTables hx).trans (Catalog.Advanced.sameTables hx').symm
  accept {x x' v v'} h hv := by
    obtain ⟨d, hx, hx'⟩ := h.foreseen
    have hpos' : 0 < x'.queues.shards := h.shards ▸ h.positive
    have hd : v.Alike d.schemaOf v' := (Catalog.Advanced.schemaOf hx).symm ▸ hv
    refine ⟨?_, ?_, _, hx.accept h.positive v, ?_⟩
    · exact (x'.queues.shards_accept v').trans (h.shards.trans (x.queues.shards_accept v).symm)
    · exact Nat.lt_of_lt_of_eq h.positive (x.queues.shards_accept v).symm
    · have haccept := hx'.accept hpos' v'
      rwa [h.shards, Catalog.followNow_of_alike hd] at haccept

theorem Agrees.step (h : x.Agrees analyzers x') (limit shard : Nat) :
    (x.step analyzers limit shard).Agrees analyzers x' := by
  obtain ⟨d, hx, hx'⟩ := h.foreseen
  have hlen : (x.step analyzers limit shard).queues.shards = x.queues.shards := List.length_modify ..
  exact ⟨h.shards.trans hlen.symm, Nat.lt_of_lt_of_eq h.positive hlen.symm, d, hx.step limit shard, hx'⟩

theorem Agrees.symm (h : x.Agrees analyzers x') : x'.Agrees analyzers x := by
  obtain ⟨d, hx, hx'⟩ := h.foreseen
  exact ⟨h.shards.symm, h.shards ▸ h.positive, d, hx', hx⟩

theorem foldl_batch_of_alike {schemaOf : Nat → Schema} {batch batch' : List Event}
    (h : List.Forall₂ (Event.Alike schemaOf) batch batch') (shard : Nat) (c : Catalog) :
    (batch'.zip (Event.analyzeAll schemaOf analyzers batch')).foldl (follow shard) c =
      (batch.zip (Event.analyzeAll schemaOf analyzers batch)).foldl (follow shard) c := by
  rw [Event.zip_analyzeAll, Event.zip_analyzeAll, List.foldl_map, List.foldl_map]
  induction h generalizing c with
  | nil => rfl
  | cons hv _ ih => rw [List.foldl_cons, List.foldl_cons, hv.analyze_eq, follow_of_alike hv, ih]

theorem Alike.step (h : x.Alike x') (analyzers : Analyzers) (limit shard : Nat) :
    (x.step analyzers limit shard).Alike (x'.step analyzers limit shard) where
  catalog := by
    have hschema : x'.schemaOf = x.catalog.schemaOf := congrArg Catalog.schemaOf h.catalog
    rw [Indexer.step, Indexer.step]
    simp only [hschema, h.catalog]
    exact foldl_batch_of_alike (List.forall₂_take limit (h.waiting shard)) shard x.catalog
  shards := (List.length_modify ..).trans (h.shards.trans (List.length_modify ..).symm)
  positive := Nat.lt_of_lt_of_eq h.positive (List.length_modify ..).symm
  waiting i := by
    rw [(advanced_step analyzers x limit shard).schemaOf, getD_waiting_step, getD_waiting_step]
    split
    next => exact List.forall₂_drop limit (h.waiting i)
    next => exact h.waiting i

end Indexer

end Corpus
