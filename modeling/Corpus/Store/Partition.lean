import Corpus.Record

/-! A partition of a table: records by identity, and their identities in the order of time. -/

namespace Corpus

/-- Where a record stands in the order of time.  Records of one time are in the order of their
identities. -/
structure Moment where
  time : Int
  id : String
  deriving DecidableEq

namespace Moment

instance : Ord Moment := ⟨compareLex (compareOn time) (compareOn id)⟩

instance : Std.TransOrd Moment :=
  inferInstanceAs (Std.TransCmp (compareLex (compareOn time) (compareOn id)))

theorem compare_eq (m n : Moment) : compare m n = (compare m.time n.time).then (compare m.id n.id) := rfl

instance : Std.LawfulEqOrd Moment where
  eq_of_compare {m n} h := by
    rw [compare_eq, Ordering.then_eq_eq, Std.compare_eq_iff_eq, Std.compare_eq_iff_eq] at h
    cases m
    cases n
    cases h.1
    cases h.2
    rfl

end Moment

def Record.moment (r : Record) : Moment := ⟨r.timestamp, r.id⟩

structure Partition where
  byId : Dict String Record
  byTime : Dict Moment Unit

namespace Partition

def empty : Partition := ⟨.empty, .empty⟩

def get? (p : Partition) (id : String) : Option Record := p.byId.get? id

def erase (p : Partition) (id : String) : Partition :=
  match p.get? id with
  | none => p
  | some r => ⟨p.byId.erase id, p.byTime.erase r.moment⟩

/-- A record takes the place of the one of its identity, also where that one has another time. -/
def insert (p : Partition) (r : Record) : Partition :=
  let rest := p.erase r.id
  ⟨rest.byId.insert r.id r, rest.byTime.insert r.moment ()⟩

/-- The moments in `[lower, upper)`.  There are none if the bounds are inverted, and the last of all
times stands for no upper bound. -/
def moments (p : Partition) (lower upper : Int) : List Moment :=
  if upper = timeMax then p.byTime.keys.filter fun m => (compare ⟨lower, ""⟩ m).isLE
  else p.byTime.keys.filter fun m =>
    (compare ⟨min lower upper, ""⟩ m).isLE && compare m ⟨upper, ""⟩ = .lt

def inRange (lower upper : Int) (p : Partition) : List Record :=
  (p.moments lower upper).filterMap fun m => p.get? m.id

end Partition

end Corpus
