import Corpus.Data.DocSet
import Corpus.Number.Key

/-! The index of numbers: for each field, the documents that hold a number, by the number's key. -/

namespace Corpus

open Number

structure NumberIndex where
  fields : Dict String (Dict Nat DocSet)
  deriving DecidableEq

namespace NumberIndex

def empty : NumberIndex := ⟨.empty⟩

/-- A NaN is not indexed. -/
def add (n : NumberIndex) (doc : Nat) (field : String) (x : Binary64) : NumberIndex :=
  if x.isNaN then n
  else ⟨n.fields.alter field fun tree =>
    some ((tree.getD .empty).alter (sortKey x) fun docs => some ((docs.getD .empty).insert doc))⟩

def remove (n : NumberIndex) (doc : Nat) (field : String) (x : Binary64) : NumberIndex :=
  ⟨n.fields.alter field fun tree => tree.bind fun tree =>
    (tree.alter (sortKey x) fun docs => docs.bind fun docs =>
      if (docs.erase doc).isEmpty then none else some (docs.erase doc)).nonempty?⟩

def hasField (n : NumberIndex) (field : String) : Bool := n.fields.contains field

def range (n : NumberIndex) (field : String) (lower upper : Bound) : DocSet :=
  let tree := (n.fields.get? field).getD .empty
  .unions (tree.filter fun key _ => lower.least ≤ key && key < upper.limit).values

def equals (n : NumberIndex) (field : String) (x : Binary64) : DocSet :=
  n.range field (.included x) (.included x)

end NumberIndex

end Corpus
