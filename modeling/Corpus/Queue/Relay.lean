import Corpus.Queue.Indexer

/-! The relay: writers, workers and waiters around the queues of an indexer, one step of one of them at a
time.  A writer announces an event and then puts it into a queue; a worker takes a batch, follows it event
by event and then reports it; a waiter reads what was announced and then looks whether it was reported. -/

namespace Corpus

inductive Division
  | whole
  | halves (left right : Division)
  deriving DecidableEq

namespace Change

def isUpsert : Change → Bool
  | .upsert _ => true
  | .tombstone _ | .clear => false

end Change

namespace Event

def analyzeDivided (schemaOf : Nat → Schema) (analyzers : Analyzers) :
    Division → List Event → List (Option (Except Error Document))
  | .whole, events => analyzeAll schemaOf analyzers events
  | .halves left right, events =>
    analyzeDivided schemaOf analyzers left (events.take (events.length / 2)) ++
      analyzeDivided schemaOf analyzers right (events.drop (events.length / 2))

def analyzeBatch (threshold : Nat) (schemaOf : Nat → Schema) (analyzers : Analyzers)
    (division : Division) (events : List Event) : List (Option (Except Error Document)) :=
  if max threshold 1 ≤ events.countP (·.change.isUpsert) then
    analyzeDivided schemaOf analyzers division events
  else analyzeAll schemaOf analyzers events

end Event

abbrev Task := Event × Option (Except Error Document)

structure Lane where
  /-- Counted, and not yet in the queue. -/
  announced : List Event
  waiting : List Event
  held : List Task
  followed : List Event
  reported : List Event

namespace Lane

def empty : Lane := ⟨[], [], [], [], []⟩

def announce (v : Event) (l : Lane) : Lane := { l with announced := l.announced ++ [v] }

/-- Puts one of the announced events into the queue.  They belong to as many writers. -/
def enqueue (k : Nat) (l : Lane) : Lane :=
  match l.announced[k]? with
  | some v => { l with announced := l.announced.eraseIdx k, waiting := l.waiting ++ [v] }
  | none => l

/-- A worker takes a batch once it has reported the one before, and analyzes it first. -/
def take (analyze : List Event → List (Option (Except Error Document))) (limit : Nat) (l : Lane) :
    Lane :=
  if l.held = [] ∧ l.followed = [] then
    { l with
      waiting := l.waiting.drop limit
      held := (l.waiting.take limit).zip (analyze (l.waiting.take limit)) }
  else l

def follow (l : Lane) : Lane :=
  match l.held with
  | [] => l
  | task :: rest => { l with held := rest, followed := l.followed ++ [task.1] }

def finished (l : Lane) : List Event := if l.held = [] then l.followed else []

def report (l : Lane) : Lane :=
  if l.held = [] then { l with followed := [], reported := l.reported ++ l.followed } else l

def applied (l : Lane) : List Event := l.reported ++ l.followed

def entered (l : Lane) : List Event := l.applied ++ l.held.map (·.1) ++ l.waiting

def Idle (l : Lane) : Prop := l.announced = [] ∧ l.waiting = [] ∧ l.held = [] ∧ l.followed = []

end Lane

structure Waiter where
  targets : List Nat
  returned : Bool

structure Relay where
  catalog : Catalog
  barrier : Barrier
  lanes : List Lane
  waiters : List Waiter

inductive Tick
  | announce (shard : Nat) (v : Event)
  | enqueue (shard k : Nat)
  | take (shard limit : Nat) (division : Division)
  | follow (shard : Nat)
  | report (shard : Nat)
  | call
  | look (k : Nat)
  deriving DecidableEq

namespace Relay

def new (c : Catalog) (shards : Nat) : Relay :=
  ⟨c, .new (max shards 1), List.replicate (max shards 1) .empty, []⟩

def lane (r : Relay) (shard : Nat) : Lane := r.lanes.getD shard .empty

def tick (analyzers : Analyzers) (threshold : Nat) (r : Relay) : Tick → Relay
  | .announce shard v =>
    { r with barrier := r.barrier.register shard, lanes := r.lanes.modify shard (·.announce v) }
  | .enqueue shard k => { r with lanes := r.lanes.modify shard (·.enqueue k) }
  | .take shard limit division =>
    { r with
      lanes := r.lanes.modify shard
        (·.take (Event.analyzeBatch threshold r.catalog.schemaOf analyzers division) limit) }
  | .follow shard =>
    { r with
      catalog := (r.lane shard).held.head?.elim r.catalog (Indexer.follow shard r.catalog)
      lanes := r.lanes.modify shard (·.follow) }
  | .report shard =>
    { r with
      barrier := r.barrier.complete shard (r.lane shard).finished.length
      lanes := r.lanes.modify shard (·.report) }
  | .call => { r with waiters := r.waiters ++ [⟨r.barrier.registered, false⟩] }
  | .look k =>
    { r with
      waiters := r.waiters.modify k fun w =>
        { w with returned := w.returned || r.barrier.reached w.targets } }

def run (analyzers : Analyzers) (threshold : Nat) (r : Relay) (ticks : List Tick) : Relay :=
  ticks.foldl (tick analyzers threshold) r

def returned (r : Relay) (k : Nat) : Bool := (r.waiters[k]?.map (·.returned)).getD false

end Relay

end Corpus
