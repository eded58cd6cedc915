import Corpus.Index.Numbers

/-! Ranges of keys by an end on either side, as a search tree is asked for them.  A tree refuses ends
that are out of order, and the index asks beforehand whether the ends leave room. -/

namespace Corpus

open Number

inductive KeyEnd
  | open
  | included (key : Nat)
  | excluded (key : Nat)
  deriving DecidableEq

namespace KeyEnd

def startsBy (key : Nat) : KeyEnd → Bool
  | .open => true
  | .included k => k ≤ key
  | .excluded k => k < key

def endsBy (key : Nat) : KeyEnd → Bool
  | .open => true
  | .included k => key ≤ k
  | .excluded k => key < k

/-- Whether the index gives up before it asks the tree. -/
def isVoid : KeyEnd → KeyEnd → Bool
  | .included l, .included u => u < l
  | .included l, .excluded u => u ≤ l
  | .excluded l, .included u => u ≤ l
  | .excluded l, .excluded u => u ≤ l
  | _, _ => false

/-- Whether the tree refuses: a lower end above the upper one, or both at one key that both leave
out. -/
def isRefused : KeyEnd → KeyEnd → Bool
  | .excluded l, .excluded u => u ≤ l
  | .included l, .included u => u < l
  | .included l, .excluded u => u < l
  | .excluded l, .included u => u < l
  | _, _ => false

end KeyEnd

def Dict.between? (tree : Dict Nat ν) (lower upper : KeyEnd) : Option (List ν) :=
  if lower.isRefused upper then none
  else some (tree.filter fun key _ => lower.startsBy key && upper.endsBy key).values

/-- An infinity that is included is no end at all if it is the negative one, and else the last of all
keys. -/
def Number.Bound.keyEnd : Bound → KeyEnd
  | .unbounded => .open
  | .included x =>
    if x.isInfinite then if x.negative then .open else .included (UInt64.size - 1)
    else .included (sortKey x)
  | .excluded x => .excluded (sortKey x)

def NumberIndex.range? (n : NumberIndex) (field : String) (lower upper : Bound) : Option DocSet :=
  match n.fields.get? field with
  | none => some .empty
  | some tree =>
    if lower.keyEnd.isVoid upper.keyEnd then some .empty
    else (tree.between? lower.keyEnd upper.keyEnd).map .unions

end Corpus
