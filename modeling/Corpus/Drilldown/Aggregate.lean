import Corpus.Drilldown.Request

/-! Sums over the hits of a drill-down, by category and by bucket.  Weights are added in the order of
the documents within a segment, and then in the order of the segments. -/

namespace Corpus

open Number

def weight (s : Segment) (scoreField : Option String) (doc : Nat) : Binary64 :=
  match scoreField with
  | some field => (s.numberOf? doc field).getD 0
  | none => 1

structure Tally where
  count : Nat
  score : Binary64
  deriving DecidableEq

namespace Tally

def zero : Tally := ⟨0, 0⟩

def add (t u : Tally) : Tally := ⟨t.count + u.count, t.score + u.score⟩

def sum (ts : List Tally) : Tally := ts.foldl add zero

def ofDocs (s : Segment) (scoreField : Option String) (docs : List Nat) : Tally :=
  sum (docs.map fun doc => ⟨1, weight s scoreField doc⟩)

end Tally

structure Category where
  label : String
  path : Path
  tally : Tally
  deriving DecidableEq

structure CategoryLevel where
  root : Category
  children : List Category
  deriving DecidableEq

namespace CategoryDrilldown

def notAfter (a b : Category) : Bool :=
  b.tally.score.totalRank < a.tally.score.totalRank ||
    a.tally.score.totalRank = b.tally.score.totalRank && a.label ≤ b.label

def check (r : CategoryDrilldown) (s : Schema) : Except Error Unit := do
  checkFacet s r.field
  checkScore s r.scoreField

def prepare (r : CategoryDrilldown) (c : Catalog) (analyzers : Analyzers) :
    Except Error (Option Prepared) := do
  r.check (c.schemaOrEmpty r.table)
  let p ← Prepared.prepare c analyzers r.table (r.query.getD "")
  let paths := Dict.empty.insert r.field r.path
  return p.map (·.restrict [Drilldown.pathPlan (r.field, r.path)] ⟨paths, none, []⟩)

def childTallies (r : CategoryDrilldown) (s : Segment) (docs : DocSet) : Dict String Tally :=
  (s.facets.children r.field r.path docs).foldl
    (fun d (doc, label) => d.alter label fun t =>
      some ((t.getD .zero).add ⟨1, weight s r.scoreField doc⟩))
    .empty

def mergeTallies (d e : Dict String Tally) : Dict String Tally :=
  e.entries.foldl (fun d (label, t) => d.alter label fun u => some ((u.getD .zero).add t)) d

def level (r : CategoryDrilldown) (parts : List (Segment × DocSet)) : CategoryLevel :=
  let children := (parts.map fun (s, docs) => r.childTallies s docs).foldl mergeTallies .empty
  let children := children.entries.map fun (label, t) => Category.mk label (r.path ++ [label]) t
  { root := ⟨r.path.getLast?.getD "", r.path,
      .sum (parts.map fun (s, docs) => .ofDocs s r.scoreField docs.toList)⟩
    children := ((children.mergeSort notAfter).drop r.start).take r.count }

def run (r : CategoryDrilldown) (c : Catalog) (analyzers : Analyzers) :
    Except Error CategoryLevel := do
  let p ← r.prepare c analyzers
  return r.level (← p.elim (.ok []) (·.matched))

end CategoryDrilldown

namespace Drilldown

def bucketScore (r : Drilldown) (field : String) (parts : List (Segment × DocSet)) (b : Bucket) :
    Binary64 :=
  (Tally.sum (parts.map fun (s, docs) =>
    .ofDocs s r.scoreField ((s.numbers.range field b.bounds.1 b.bounds.2).inter docs).toList)).score

/-- The buckets with their scores.  Here they divide the matches and are no filter. -/
def ranges (r : Drilldown) (c : Catalog) (analyzers : Analyzers) :
    Except Error (List (Bucket × Binary64)) := do
  match r.rangeField with
  | none => .error .noRangeField
  | some field =>
    let p ← r.prepare c analyzers false
    let parts ← p.elim (.ok []) (·.matched)
    return r.buckets.map fun b => (b, r.bucketScore field parts b)

end Drilldown

end Corpus
