import Corpus.Catalog
import Corpus.Identity
import Corpus.Queue.Barrier
import Corpus.Queue.Event

/-! The indexer: the catalog, and for each shard a queue of the events that its indexes have still to
follow, first in first out. -/

namespace Corpus

structure Queues where
  waiting : List (List Event)
  barrier : Barrier
  enqueued : Nat
  processed : Nat
  failed : Nat
  closed : Bool

namespace Queues

def new (shards : Nat) : Queues :=
  ⟨List.replicate (max shards 1) [], .new (max shards 1), 0, 0, 0, false⟩

def shards (q : Queues) : Nat := q.waiting.length

def push (q : Queues) (shard : Nat) (e : Event) : Queues :=
  { q with
    barrier := q.barrier.register shard
    waiting := q.waiting.modify shard (· ++ [e])
    enqueued := q.enqueued + 1 }

def targets (q : Queues) (e : Event) : List Nat := e.change.targets e.table q.shards

def send (q : Queues) (e : Event) : Except Error Queues :=
  if q.closed then .error .closed
  else .ok ((q.targets e).foldl (fun q shard => q.push shard e) q)

def sendAll (q : Queues) (t : Table) (changes : List Change) : Except Error Queues :=
  changes.foldlM (fun q change => q.send ⟨t.name, t.epoch, change⟩) q

end Queues

structure Indexer where
  catalog : Catalog
  queues : Queues

namespace Indexer

def new (shards : Nat) : Indexer := ⟨.new shards, .new shards⟩

def schemaOf (x : Indexer) : Nat → Schema := x.catalog.schemaOf

def follow (shard : Nat) (c : Catalog) (change : Event × Option (Except Error Document)) : Catalog :=
  c.alter change.1.epoch fun t =>
    { t with shards := t.shards.update shard (change.1.change.apply change.2) }

def step (analyzers : Analyzers) (limit shard : Nat) (x : Indexer) : Indexer :=
  let batch := (x.queues.waiting.getD shard []).take limit
  let analyses := Event.analyzeAll x.schemaOf analyzers batch
  { catalog := (batch.zip analyses).foldl (follow shard) x.catalog
    queues := { x.queues with
      waiting := x.queues.waiting.modify shard (·.drop batch.length)
      barrier := x.queues.barrier.complete shard batch.length
      processed := x.queues.processed + batch.length
      failed := x.queues.failed + analyses.countP isFailure } }

/-- As many steps as there are events are enough for one shard, whatever the limit. -/
def drain (analyzers : Analyzers) (limit : Nat) (x : Indexer) (shard : Nat) : Indexer :=
  (List.range (x.queues.waiting.getD shard []).length).foldl
    (fun x _ => x.step analyzers (max limit 1) shard) x

def settle (analyzers : Analyzers) (limit : Nat) (x : Indexer) : Indexer :=
  (List.range x.queues.shards).foldl (drain analyzers limit) x

def shutdown (analyzers : Analyzers) (limit : Nat) (x : Indexer) : Indexer :=
  let x := x.settle analyzers limit
  { x with queues := { x.queues with closed := true } }

end Indexer

end Corpus
