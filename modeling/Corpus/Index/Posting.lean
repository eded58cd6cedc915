import Corpus.Data.DocSet
import Corpus.Data.Total

/-! Posting lists: which documents hold a term, and where. -/

namespace Corpus

/-- The occurrences of a term in one document's field of `fieldLength` tokens. -/
structure Posting where
  termFreq : Nat
  positions : List Nat
  fieldLength : Nat
  deriving DecidableEq

abbrev PostingList := Dict Nat Posting

namespace PostingList

def totalFreq (l : PostingList) : Nat := total (l.values.map (·.termFreq))

def merge : List Nat → List Nat → List Nat
  | a :: as, b :: bs =>
    if a = b then a :: merge as bs
    else if a < b then merge as (b :: bs)
    else merge (a :: as) bs
  | _, _ => []
termination_by as bs => as.length + bs.length

def common (l m : PostingList) : List Nat := merge l.keys m.keys

end PostingList

/-- Postings in a row, each with its document. -/
abbrev Postings := List (Nat × Posting)

namespace Postings

/-- Of so many places from `base` on the only one where a document can be.  The places are halved until one
is left. -/
def narrow (l : Postings) (doc base size : Nat) : Nat :=
  if size ≤ 1 then base
  else
    let middle := base + size / 2
    narrow l doc (if l[middle]?.any (·.1 ≤ doc) then middle else base) (size - size / 2)
termination_by size

inductive Spot
  | taken (place : Nat)
  | free (place : Nat)
  deriving DecidableEq

def spot (l : Postings) (doc : Nat) : Spot :=
  let place := narrow l doc 0 l.length
  match l[place]? with
  | none => .free place
  | some a => if a.1 = doc then .taken place else if a.1 < doc then .free (place + 1) else .free place

def add (l : Postings) (doc : Nat) (p : Posting) : Postings :=
  match spot l doc with
  | .taken place => l.set place (doc, p)
  | .free place => l.insertIdx place (doc, p)

def remove (l : Postings) (doc : Nat) : Bool × Postings :=
  match spot l doc with
  | .taken place => (true, l.eraseIdx place)
  | .free _ => (false, l)

def get? (l : Postings) (doc : Nat) : Option Posting :=
  match spot l doc with
  | .taken place => l[place]?.map (·.2)
  | .free _ => none

def docs (l : Postings) : List Nat := l.map (·.1)

def totalFreq (l : Postings) : Nat := total (l.map (·.2.termFreq))

def common (l m : Postings) : List Nat := PostingList.merge l.docs m.docs

end Postings

end Corpus
