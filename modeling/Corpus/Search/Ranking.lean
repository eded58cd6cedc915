import Corpus.Search.Limit

/-! Ranking: the best hits by score, and by identity where scores are equal. -/

namespace Corpus

open Number

structure Hit where
  id : String
  score : Binary32
  deriving DecidableEq

def Hit.before (a b : Hit) : Bool :=
  b.score.totalRank < a.score.totalRank ||
    (a.score.totalRank = b.score.totalRank && a.id < b.id)

def Hit.rankOrder (a b : Hit) : Ordering :=
  (compare b.score.totalRank a.score.totalRank).then (compare a.id b.id)

namespace Ranking

def insert (h : Hit) : List Hit → List Hit
  | [] => [h]
  | g :: rest => if h.before g then h :: g :: rest else g :: insert h rest

def collect (k : Nat) (best : List Hit) (h : Hit) : List Hit := (insert h best).take k

def best (k : Nat) (hits : List Hit) : List Hit := hits.foldl (collect k) []

end Ranking

/-- At most `room` hits, in no order. -/
structure Collector where
  room : Nat
  kept : List Hit
  deriving DecidableEq

namespace Collector

def new (room : Nat) : Collector := ⟨room, []⟩

def weakest? : List Hit → Option Hit
  | [] => none
  | h :: rest => some (((weakest? rest).filter h.before).getD h)

/-- While there is room a hit is kept, and then only in place of one that ranks behind it. -/
def collect (c : Collector) (h : Hit) : Collector :=
  if c.room = 0 then c
  else if c.kept.length < c.room then { c with kept := h :: c.kept }
  else match weakest? c.kept with
    | none => c
    | some weakest => if h.before weakest then { c with kept := h :: c.kept.erase weakest } else c

def results (c : Collector) : List Hit := c.kept.mergeSort fun a b => (a.rankOrder b).isLE

def top (room : Nat) (hits : List Hit) : List Hit := (hits.foldl collect (new room)).results

end Collector

/-- The hits among the documents of a segment that still have an identity. -/
def Segment.hits (s : Segment) (scored : Scored) : List Hit :=
  scored.entries.filterMap fun (doc, score) => (s.idOf? doc).map (Hit.mk · score)

namespace Plan

def top (score : Scorer) (shards : Shards) (k : Nat) (p : Plan) (s : Segment) :
    Except Error (List Hit) := do
  return Ranking.best k (s.hits (← p.run score shards s))

/-- The hits from `start` on, at most `count`.  The best of all are among the best of each segment. -/
def window (score : Scorer) (shards : Shards) (p : Plan) (start count : Nat) :
    Except Error (List Hit) := do
  let k := min (start + count) (UInt64.size - 1)
  return (Ranking.best k (← shards.mapM (p.top score shards k)).flatten).drop start

def count (score : Scorer) (shards : Shards) (p : Plan) : Except Error Nat := do
  return total ((← shards.mapM (p.run score shards)).map (·.size))

end Plan

end Corpus
