import Corpus.Data.Total
import Corpus.Error

/-! The barrier counts, for each shard, the events that were announced and those that are done. -/

namespace Corpus

structure Barrier where
  registered : List Nat
  completed : List Nat
  deriving DecidableEq

namespace Barrier

def new (shards : Nat) : Barrier := ⟨List.replicate shards 0, List.replicate shards 0⟩

def register (b : Barrier) (shard : Nat) : Barrier :=
  { b with registered := b.registered.modify shard (· + 1) }

def complete (b : Barrier) (shard events : Nat) : Barrier :=
  { b with completed := b.completed.modify shard (· + events) }

def remaining (b : Barrier) (targets : List Nat) : Nat :=
  total (List.zipWith (· - ·) targets b.completed)

def reached (b : Barrier) (targets : List Nat) : Bool :=
  (List.zipWith (fun target done => decide (target ≤ done)) targets b.completed).all id

def pending (b : Barrier) : Nat := b.remaining b.registered

/-- Waits for the events registered so far.  Nothing is done while it waits, so that it ends at once or
by the time limit. -/
def wait (b : Barrier) (milliseconds : Nat) : Except Error Unit :=
  if b.reached b.registered then .ok ()
  else .error (.pending (b.remaining b.registered) milliseconds)

end Barrier

end Corpus
