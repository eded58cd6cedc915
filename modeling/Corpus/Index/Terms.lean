import Corpus.Analysis.Tokenizer
import Corpus.Index.Posting
import Corpus.Text.Bytes
import Corpus.Text.Glob

/-! The index of words: for each field, its terms in order with their postings, and the number and
length of its values. -/

namespace Corpus

open Text

structure Term where
  field : String
  text : String
  deriving DecidableEq

/-- Terms are in the order of the bytes of their fields, and in one field in that of their texts. -/
def Term.before (a b : Term) : Bool :=
  utf8 a.field < utf8 b.field || (a.field = b.field && utf8 a.text < utf8 b.text)

structure FieldStats where
  docCount : Nat
  totalLength : Nat
  deriving DecidableEq

def FieldStats.add (length : Nat) (s : Option FieldStats) : Option FieldStats :=
  let s := s.getD ⟨0, 0⟩
  some ⟨s.docCount + 1, s.totalLength + length⟩

def FieldStats.remove (length : Nat) (s : Option FieldStats) : Option FieldStats :=
  s.bind fun s =>
    if s.docCount ≤ 1 then none else some ⟨s.docCount - 1, s.totalLength - length⟩

structure TermIndex where
  postings : Dict String (Dict String PostingList)
  stats : Dict String FieldStats
  deriving DecidableEq

namespace TermIndex

def empty : TermIndex := ⟨.empty, .empty⟩

def grouped (tokens : List Token) : Dict String (List Nat) :=
  tokens.foldl (fun d t => d.alter t.text fun ps => some (ps.getD [] ++ [t.position])) .empty

def addPosting (doc length : Nat) (terms : Dict String PostingList) (entry : String × List Nat) :
    Dict String PostingList :=
  terms.alter entry.1 fun l =>
    some ((l.getD .empty).insert doc ⟨entry.2.length, entry.2, length⟩)

def removePosting (doc : Nat) (terms : Dict String PostingList) (text : String) :
    Dict String PostingList :=
  terms.alter text fun l => l.bind fun l => (l.erase doc).nonempty?

/-- Adds a value's tokens; a value without tokens leaves no trace. -/
def add (t : TermIndex) (doc : Nat) (field : String) (tokens : List Token) : TermIndex :=
  if tokens = [] then t
  else
    { postings := t.postings.alter field fun terms =>
        some ((grouped tokens).entries.foldl (addPosting doc tokens.length) (terms.getD .empty))
      stats := t.stats.alter field (FieldStats.add tokens.length) }

def remove (t : TermIndex) (doc : Nat) (field : String) (texts : List String) (length : Nat) :
    TermIndex where
  postings := t.postings.alter field fun terms =>
    terms.bind fun terms => (texts.foldl (removePosting doc) terms).nonempty?
  stats := t.stats.alter field (FieldStats.remove length)

def terms (t : TermIndex) (field : String) : Dict String PostingList :=
  (t.postings.get? field).getD .empty

def get? (t : TermIndex) (field text : String) : Option PostingList := (t.terms field).get? text

def startsWith (start text : String) : Bool := start.toList.isPrefixOf text.toList

/-- The terms with a given start are a run in the order of all terms. -/
def withStart (t : TermIndex) (field start : String) : List (String × PostingList) :=
  ((t.terms field).entries.dropWhile (·.1 < start)).takeWhile (startsWith start ·.1)

def listing (t : TermIndex) : List (Term × PostingList) :=
  t.postings.entries.flatMap fun (field, terms) => terms.entries.map fun (text, l) => (⟨field, text⟩, l)

def seek (t : TermIndex) (first : Term) : List (String × PostingList) :=
  ((t.listing.dropWhile (·.1.before first)).takeWhile fun e =>
    e.1.field = first.field && startsWith first.text e.1.text).map fun e => (e.1.text, e.2)

def matching (t : TermIndex) (field glob : String) : List (String × PostingList) :=
  (t.withStart field (String.ofList (literalPart glob.toList))).filter fun (text, _) =>
    globMatches glob.toList text.toList

def fieldStats (t : TermIndex) (field : String) : FieldStats :=
  (t.stats.get? field).getD ⟨0, 0⟩

def size (t : TermIndex) : Nat := total (t.postings.values.map (·.size))

end TermIndex

end Corpus
