import Corpus.Number.Binary

/-! Keys of 64 bits that are ordered as the numbers are, and bounds on numbers as bounds on keys. -/

namespace Corpus.Number

def middleKey : Nat := UInt64.size / 2

def sortKey (x : Binary64) : Nat :=
  if x.isZero then middleKey
  else if x.negative then middleKey - 1 - x.magnitude
  else middleKey + x.magnitude

inductive Bound
  | unbounded
  | included (x : Binary64)
  | excluded (x : Binary64)
  deriving DecidableEq

namespace Bound

/-- The least key that a lower bound admits.  Minus infinity is no bound, and the last of all keys
stands for infinity. -/
def least : Bound → Nat
  | .unbounded => 0
  | .included x =>
    if x.isInfinite then if x.negative then 0 else UInt64.size - 1 else sortKey x
  | .excluded x => sortKey x + 1

/-- The least key above all that an upper bound admits.  Neither infinity is a bound. -/
def limit : Bound → Nat
  | .unbounded => UInt64.size
  | .included x => if x.isInfinite then UInt64.size else sortKey x + 1
  | .excluded x => sortKey x

end Bound

end Corpus.Number
