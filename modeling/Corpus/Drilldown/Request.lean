import Corpus.Search.Prepared

/-! Requests for a part of the hits of a query, by categories and by ranges of numbers. -/

namespace Corpus

open Number

/-- The numbers from `lower` on and below `upper`. -/
structure Bucket where
  label : String
  lower : Binary64
  upper : Binary64
  deriving DecidableEq

namespace Bucket

def contains (b : Bucket) (x : Binary64) : Bool := b.lower.le x && x.lt b.upper

/-- At infinity there is no upper bound. -/
def bounds (b : Bucket) : Bound × Bound :=
  (.included b.lower,
    if b.upper.eq (Binary.infinity false) then .unbounded else .excluded b.upper)

def isValid (b : Bucket) : Bool := !b.lower.isNaN && !b.upper.isNaN && !b.upper.lt b.lower

def overlap? : List Bucket → Option (Bucket × Bucket)
  | a :: b :: rest => if a.contains b.lower then some (a, b) else overlap? (b :: rest)
  | _ => none

/-- Buckets have to be well formed, and apart once they are sorted by where they start. -/
def check (buckets : List Bucket) : Except Error Unit :=
  match buckets.find? (! ·.isValid) with
  | some b => .error (.badBucket b.label)
  | none =>
    match overlap? (buckets.mergeSort fun a b => a.lower.totalRank ≤ b.lower.totalRank) with
    | some (a, b) => .error (.overlap a.label b.label)
    | none => .ok ()

def plan (field : String) (b : Bucket) : Plan :=
  .leaf (.numbers field b.bounds.1 b.bounds.2) 0

/-- A bucket as it tells searches apart.  The score of a bucket is left out, here and above: the answers fill
it in and no filter reads it, so that buckets which differ in it alone stand for one search. -/
def scope (b : Bucket) : String × Option Binary64 × Option Binary64 :=
  let finite (x : Binary64) := if x.isFinite then some x else none
  (b.label, finite b.lower, finite b.upper)

end Bucket

structure Drilldown where
  table : String
  query : Option String
  paths : Dict String Path
  rangeField : Option String
  buckets : List Bucket
  /-- The field whose numbers weigh the hits; without one each hit weighs one. -/
  scoreField : Option String
  start : Nat
  count : Nat

structure CategoryDrilldown where
  table : String
  field : String
  path : Path
  query : Option String
  scoreField : Option String
  start : Nat
  count : Nat

def checkFacet (s : Schema) (field : String) : Except Error Unit :=
  match s.column? field with
  | some c => if c.type = .facet && c.indexed then .ok () else .error (.notFacetColumn field)
  | none => .ok ()

def checkNumeric (s : Schema) (role : NumericRole) (field : String) : Except Error Unit :=
  match s.column? field with
  | some c => if c.type.isNumeric && c.indexed then .ok () else .error (.notNumericColumn field role)
  | none => .ok ()

def checkScore (s : Schema) (field : Option String) : Except Error Unit :=
  match field with
  | some field => checkNumeric s .score field
  | none => .ok ()

namespace Drilldown

def check (r : Drilldown) (s : Schema) : Except Error Unit := do
  r.paths.keys.forM (checkFacet s)
  checkScore s r.scoreField
  match r.rangeField with
  | some field =>
    checkNumeric s .range field
    Bucket.check r.buckets
  | none => return

def filterField? (r : Drilldown) (byRange : Bool) : Option String :=
  if byRange && !r.buckets.isEmpty then r.rangeField else none

def pathPlan (entry : String × Path) : Plan := .leaf (.under entry.1 entry.2) 0

def filters (r : Drilldown) (byRange : Bool) : List Plan :=
  r.paths.entries.map pathPlan ++
    match r.filterField? byRange with
    | some field => [.anyOf (r.buckets.map (Bucket.plan field))]
    | none => []

def scope (r : Drilldown) (byRange : Bool) : Scope :=
  match r.filterField? byRange with
  | some field => ⟨r.paths, some field, r.buckets.map Bucket.scope⟩
  | none => ⟨r.paths, none, []⟩

def prepare (r : Drilldown) (c : Catalog) (analyzers : Analyzers) (byRange : Bool) :
    Except Error (Option Prepared) := do
  r.check (c.schemaOrEmpty r.table)
  let p ← Prepared.prepare c analyzers r.table (r.query.getD "")
  return p.map (·.restrict (r.filters byRange) (r.scope byRange))

end Drilldown

end Corpus
