import Corpus.Number.Binary

/-! A cache that forgets the least recently used entry when it is full.  One without capacity holds
nothing and counts nothing. -/

namespace Corpus

open Number

/-- The entries come with the most recently used one first. -/
structure Cache (κ : Type u) (ν : Type v) where
  capacity : Nat
  entries : List (κ × ν)
  hits : Nat
  misses : Nat

namespace Cache

variable {κ : Type u} {ν : Type v} [DecidableEq κ]

def new (capacity : Nat) : Cache κ ν := ⟨capacity, [], 0, 0⟩

def size (c : Cache κ ν) : Nat := c.entries.length

def without (c : Cache κ ν) (k : κ) : List (κ × ν) := c.entries.filter (·.1 ≠ k)

def get? (c : Cache κ ν) (k : κ) : Option ν × Cache κ ν :=
  if c.capacity = 0 then (none, c)
  else match c.entries.lookup k with
    | some v => (some v, { c with entries := (k, v) :: c.without k, hits := c.hits + 1 })
    | none => (none, { c with misses := c.misses + 1 })

def put (c : Cache κ ν) (k : κ) (v : ν) : Cache κ ν :=
  { c with entries := ((k, v) :: c.without k).take c.capacity }

def clear (c : Cache κ ν) : Cache κ ν := { c with entries := [] }

def hitRate (c : Cache κ ν) : Binary64 :=
  if c.hits + c.misses = 0 then 0 else .ofNat c.hits / .ofNat (c.hits + c.misses)

end Cache

end Corpus
