import Corpus.Proofs.Queue.Indexer
import Corpus.Proofs.Service.Action

/-! Requests and the work of the indexer, change by change. -/

namespace Corpus

/-- What decides which records an index shows.  A record is analyzed under the schema that is in force
when the indexer comes to it. -/
inductive Happening
  | put (epoch : Nat) (r : Record)
  | clear (epoch : Nat)
  | analysis (epoch : Nat) (r : Record) (schema : Schema)
  deriving DecidableEq

def Event.happenings (schemaOf : Nat → Schema) (v : Event) : List Happening :=
  match v.change with
  | .upsert r => [.analysis v.epoch r (schemaOf v.epoch)]
  | .tombstone _ | .clear => []

namespace Service

open Corpus.Action

structure Sound (s : Service) : Prop where
  alive : s.destroyed = false
  indexer : s.indexer.Sound

inductive Step (s : Service) : List Happening → Service → Prop
  | look {p : Prepared} (start count : Nat) (hp : p.scope = none →
      ∃ table query, Prepared.prepare s.catalog s.analyzers table query = .ok (some p)) :
    Step s [] { s with cache := (p.window start count s.cache).2 }
  | name (n : Nat) : Step s [] { s with identities := n }
  | forget : Step s [] { s with cache := s.cache.clear }
  | create {table : String} {store : Store} (h : s.store.create (tableName table) = .ok store) :
    Step s [] { s with
      store, indexer := { s.indexer with catalog := s.catalog.create table } }
  | drop {table : String} {t : Table} {store : Store} (ht : s.catalog.get? table = some t)
      (h : s.store.drop t.name = .ok store) :
    Step s [] { s with
      store, indexer := { s.indexer with catalog := s.catalog.remove t.epoch } }
  | setSchema {table : String} {schema : Schema} {c : Catalog}
      (h : s.catalog.setSchema table schema = .ok c) :
    Step s [] { s with indexer := { s.indexer with catalog := c } }
  | put {table : String} {t : Table} {records : List Record} {store : Store}
      (ht : s.catalog.get? table = some t) (h : s.store.put t.name records = .ok store) :
    Step s (records.map (.put t.epoch)) { s with
      store
      indexer := { s.indexer with
        queues := s.indexer.queues.acceptAll t (records.map .upsert) } }
  | delete {table : String} {t : Table} {deleted : List String} {store : Store}
      (ht : s.catalog.get? table = some t)
      (h : (∃ ids, s.store.deleteIds t.name ids = .ok (deleted, store)) ∨
        ∃ lower upper, s.store.deleteTimes t.name lower upper = .ok (deleted, store)) :
    Step s [] { s with
      store
      indexer := { s.indexer with
        queues := s.indexer.queues.acceptAll t (deleted.map .tombstone) } }
  | clear {table : String} {t : Table} (ht : s.catalog.get? table = some t) :
    Step s [.clear t.epoch] { s with
      indexer := { s.indexer with queues := s.indexer.queues.acceptAll t [.clear] } }
  | work {shard : Nat} {v : Event} {rest : List Event}
      (hw : s.indexer.queues.waiting[shard]? = some (v :: rest)) :
    Step s (v.happenings s.indexer.schemaOf)
      { s with indexer := s.indexer.step s.analyzers 1 shard }

inductive Steps : Service → List Happening → Service → Prop
  | nil (s : Service) : Steps s [] s
  | cons {s t u : Service} {g h : List Happening} (hs : Step s g t) (ht : Steps t h u) :
    Steps s (g ++ h) u

theorem Step.steps {s t : Service} {h : List Happening} (hs : Step s h t) : Steps s h t := by
  have := Steps.cons hs (.nil t)
  rwa [List.append_nil] at this

theorem Steps.trans {s t u : Service} {g h : List Happening} (hs : Steps s g t) (ht : Steps t h u) :
    Steps s (g ++ h) u := by
  induction hs with
  | nil => exact ht
  | cons hs _ ih =>
    rw [List.append_assoc]
    exact .cons hs (ih ht)

theorem Sound.step {s t : Service} {g : List Happening} (hs : s.Sound) (h : Step s g t) :
    t.Sound ∧ s.catalog.Later t.catalog := by
  have hi := hs.indexer
  cases h with
  | look | name | forget => exact ⟨⟨hs.alive, hi⟩, .refl _⟩
  | @create table store h =>
    have hl := Catalog.Later.create hi.catalog table
    have hn := s.catalog.shardCount_create table
    exact ⟨⟨hs.alive, hi.setCatalog (hi.catalog.create table) hl hn⟩, hl⟩
  | @drop table u store hu h =>
    have hl := Catalog.Later.remove s.catalog u.epoch
    have hn := s.catalog.shardCount_remove u.epoch
    exact ⟨⟨hs.alive, hi.setCatalog (hi.catalog.remove u.epoch) hl hn⟩, hl⟩
  | setSchema h =>
    obtain ⟨hc, hl, hn⟩ := hi.catalog.setSchema h
    exact ⟨⟨hs.alive, hi.setCatalog hc hl hn⟩, hl⟩
  | put ht h => exact ⟨⟨hs.alive, hi.acceptAll (hi.catalog.get? ht).2.1 _⟩, .refl _⟩
  | delete ht h => exact ⟨⟨hs.alive, hi.acceptAll (hi.catalog.get? ht).2.1 _⟩, .refl _⟩
  | clear ht => exact ⟨⟨hs.alive, hi.acceptAll (hi.catalog.get? ht).2.1 _⟩, .refl _⟩
  | work hw => exact ⟨⟨hs.alive, (hi.step_one hw).1⟩, (hi.step_one hw).2⟩

theorem Sound.steps {s t : Service} {g : List Happening} (hs : s.Sound) (h : Steps s g t) :
    t.Sound ∧ s.catalog.Later t.catalog := by
  induction h with
  | nil => exact ⟨hs, .refl _⟩
  | cons h _ ih => exact (ih (hs.step h).1).imp_right (hs.step h).2.trans

end Service

end Corpus
