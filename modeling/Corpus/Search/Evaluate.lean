import Corpus.Plan.Basic
import Corpus.Search.Score

/-! The documents of a segment that a plan matches, each with its score.  Statistics of terms are
those of all segments, so that scores of different segments can be compared. -/

namespace Corpus

open Number

abbrev Scored := Dict Nat Binary32

namespace Plan

def docsOf (lists : List (String × PostingList)) : DocSet :=
  .unions (lists.map fun (_, l) => l.docs)

structure PhraseTerm where
  text : String
  postings : PostingList
  offset : Nat

/-- Whether each term of a phrase, by its positions and its offset, stands at the offset from one
place. -/
def isPhrase : List (List Nat × Nat) → Bool
  | [] => false
  | (positions, offset) :: rest =>
    positions.any fun p =>
      offset ≤ p && rest.all fun (positions', offset') => positions'.contains (p - offset + offset')

def PhraseTerm.place? (t : PhraseTerm) (doc : Nat) : Option (List Nat × Nat) :=
  (t.postings.get? doc).map fun p => (p.positions, t.offset)

def isPhraseAt (terms : List PhraseTerm) (doc : Nat) : Bool :=
  (terms.mapM (PhraseTerm.place? · doc)).any isPhrase

def phraseDocs : List PhraseTerm → DocSet
  | [] => .empty
  | t :: ts =>
    (ts.foldl (fun docs t => docs.inter t.postings.docs) t.postings.docs).filter
      (isPhraseAt (t :: ts))

def lookup (score : Scorer) (shards : Shards) (s : Segment) (boost : Binary32) :
    Criterion → Scored
  | .all => s.live.toDict fun _ => boost
  | .term field text =>
    let docFreq := shards.docFreq field text
    let mean := shards.fieldMean field
    ((s.terms.get? field text).getD .empty).mapValues fun p => score p docFreq mean * boost
  | .phrase field terms =>
    match terms.mapM fun (text, offset) =>
      (s.terms.get? field text).map (PhraseTerm.mk text · offset) with
    | none => .empty
    | some terms =>
      let mean := shards.fieldMean field
      let freqs := terms.map fun t => (t.postings, shards.docFreq field t.text)
      (phraseDocs terms).toDict fun doc =>
        Binary.sum (freqs.filterMap fun (postings, docFreq) =>
          (postings.get? doc).map fun p => score p docFreq mean) * boost
  | .prefixed field start => (docsOf (s.terms.withStart field start)).toDict fun _ => boost
  | .wildcard field glob => (docsOf (s.terms.matching field glob)).toDict fun _ => boost
  | .numbers field lower upper => (s.numbers.range field lower upper).toDict fun _ => boost
  | .under field path => (s.facets.docsUnder field path).toDict fun _ => boost

/-- Required parts decide the match; without them any optional one does, and without those too all
live documents match.  Prohibited ones are taken away in any case. -/
def matched (live : DocSet) (must should mustNot : List Scored) : DocSet :=
  let docs := match must, should with
    | p :: ps, _ => ps.foldl (fun docs q => docs.inter q.docs) p.docs
    | [], [] => live
    | [], _ => .unions (should.map (·.docs))
  mustNot.foldl (fun docs p => docs.diff p.docs) docs

def combine (live : DocSet) (must should mustNot : List Scored) (boost : Binary32) : Scored :=
  let parts := must ++ should
  (matched live must should mustNot).toDict fun doc =>
    if parts.isEmpty then boost else Binary.sum (parts.filterMap (·.get? doc)) * boost

mutual

def evaluate (score : Scorer) (shards : Shards) (s : Segment) : Plan → Scored
  | .nothing => .empty
  | .leaf criterion boost => lookup score shards s boost criterion
  | .bool must should mustNot boost =>
    combine s.live (evaluateEach score shards s must) (evaluateEach score shards s should)
      (evaluateEach score shards s mustNot) boost

def evaluateEach (score : Scorer) (shards : Shards) (s : Segment) : List Plan → List Scored
  | [] => []
  | p :: ps => evaluate score shards s p :: evaluateEach score shards s ps

end

end Plan

end Corpus
