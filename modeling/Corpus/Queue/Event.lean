import Corpus.Identity
import Corpus.Index.Segment

/-! Events: changes that an index has still to follow. -/

namespace Corpus

inductive Change
  | upsert (r : Record)
  | tombstone (id : String)
  | clear
  deriving DecidableEq

structure Event where
  table : String
  epoch : Nat
  change : Change
  deriving DecidableEq

namespace Change

def id? : Change → Option String
  | .upsert r => some r.id
  | .tombstone id => some id
  | .clear => none

/-- A change of one record goes to the record's shard, and all others go to every shard. -/
def targets (table : String) (shards : Nat) (c : Change) : List Nat :=
  match c.id? with
  | some id => [shardOf table id shards]
  | none => List.range shards

def analyze (schema : Schema) (analyzers : Analyzers) : Change → Option (Except Error Document)
  | .upsert r => some (Document.ofRecord schema analyzers r)
  | .tombstone _ | .clear => none

/-- A record that cannot be analyzed takes its earlier version with it. -/
def apply (analysis : Option (Except Error Document)) : Change → Segment → Segment
  | .upsert r, s =>
    match analysis with
    | some (.ok d) => s.upsert d
    | _ => s.delete r.id
  | .tombstone id, s => s.delete id
  | .clear, s => s.clear

end Change

def isFailure : Option (Except Error Document) → Bool
  | some (.error _) => true
  | _ => false

def Event.analyzeAll (schemaOf : Nat → Schema) (analyzers : Analyzers) (events : List Event) :
    List (Option (Except Error Document)) :=
  events.map fun e => e.change.analyze (schemaOf e.epoch) analyzers

end Corpus
