import Corpus.Index.Document
import Corpus.Index.Facets
import Corpus.Index.Numbers
import Corpus.Index.Terms

/-! Segments: the documents of one shard of a table and the indexes over them.  A document keeps what
it put into the indexes, so that the same can be taken out again. -/

namespace Corpus

open Number

/-- Numbers of documents are not used twice. -/
structure Segment where
  docs : Dict Nat Document
  terms : TermIndex
  numbers : NumberIndex
  facets : FacetIndex
  nextDoc : Nat
  generation : Nat
  deriving DecidableEq

namespace Segment

def empty : Segment := ⟨.empty, .empty, .empty, .empty, 0, 0⟩

def addField (doc : Nat) (s : Segment) (field : String × Content) : Segment :=
  match field.2 with
  | .text tokens => { s with terms := s.terms.add doc field.1 tokens }
  | .number x => { s with numbers := s.numbers.add doc field.1 x }
  | .facet path => { s with facets := s.facets.add doc field.1 path }

def removeField (doc : Nat) (s : Segment) (field : String × Content) : Segment :=
  match field.2 with
  | .text [] => s
  | .text tokens =>
    { s with terms :=
        s.terms.remove doc field.1 (TermIndex.grouped tokens).keys tokens.length }
  | .number x => { s with numbers := s.numbers.remove doc field.1 x }
  | .facet _ => { s with facets := s.facets.remove doc field.1 }

def docOf? (s : Segment) (id : String) : Option Nat :=
  (s.docs.entries.find? (·.2.id = id)).map (·.1)

def remove (s : Segment) (doc : Nat) : Segment :=
  match s.docs.get? doc with
  | none => s
  | some d => { d.fields.foldl (removeField doc) s with docs := s.docs.erase doc }

def insert (s : Segment) (doc : Nat) (d : Document) : Segment :=
  { d.fields.foldl (addField doc) s with docs := s.docs.insert doc d }

def upsert (s : Segment) (d : Document) : Segment :=
  match s.docOf? d.id with
  | some doc => (s.remove doc).insert doc d
  | none => { s with nextDoc := s.nextDoc + 1 }.insert s.nextDoc d

def contains (s : Segment) (id : String) : Bool := (s.docOf? id).isSome

def delete (s : Segment) (id : String) : Segment :=
  match s.docOf? id with
  | some doc => s.remove doc
  | none => s

def clear (s : Segment) : Segment :=
  { empty with nextDoc := s.nextDoc, generation := s.generation }

/-- Marks a change as one that readers can see. -/
def bump (s : Segment) : Segment := { s with generation := s.generation + 1 }

def live (s : Segment) : DocSet := s.docs.docs

def idOf? (s : Segment) (doc : Nat) : Option String := (s.docs.get? doc).map (·.id)

def numberOf? (s : Segment) (doc : Nat) (field : String) : Option Binary64 :=
  (s.docs.get? doc).bind fun d => d.fields.findSome? fun (name, content) =>
    match content with
    | .number x => if name = field then some x else none
    | _ => none

end Segment

end Corpus
