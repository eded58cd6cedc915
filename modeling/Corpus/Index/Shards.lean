import Corpus.Index.Segment
import Corpus.Number.Binary

/-! The index of a table: one segment for each shard, and statistics over all of them. -/

namespace Corpus

open Number

abbrev Shards := List Segment

structure FieldMean where
  docs : Nat
  meanLength : Binary32
  deriving DecidableEq

namespace Shards

/-- There is always at least one shard. -/
def new (count : Nat) : Shards := List.replicate (max count 1) .empty

def update (s : Shards) (shard : Nat) (f : Segment → Segment) : Shards :=
  s.modify shard fun segment => (f segment).bump

def docCount (s : Shards) : Nat := total (s.map (·.docs.size))

def generation (s : Shards) : Nat := total (s.map (·.generation))

def docFreq (s : Shards) (field text : String) : Nat :=
  total (s.map fun segment => ((segment.terms.get? field text).map (·.size)).getD 0)

def fieldMean (s : Shards) (field : String) : FieldMean :=
  let docs := total (s.map (·.terms.fieldStats field |>.docCount))
  let length := total (s.map (·.terms.fieldStats field |>.totalLength))
  ⟨docs, if docs = 0 then 0 else .ofNat length / .ofNat docs⟩

end Shards

end Corpus
