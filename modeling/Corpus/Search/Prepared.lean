import Corpus.Catalog
import Corpus.Plan.OfQuery
import Corpus.Plan.Simplify
import Corpus.Query.Parser
import Corpus.Search.Cache
import Corpus.Search.Ranking

/-! Searches that are ready to run: a plan against the index of one incarnation of a table. -/

namespace Corpus

open Number

/-- What a drill-down adds to a query: paths of categories, and ranges of a field.  A bound at infinity
is none. -/
structure Scope where
  paths : Dict String Path
  rangeField : Option String
  ranges : List (String × Option Binary64 × Option Binary64)
  deriving DecidableEq

structure Prepared where
  table : String
  query : String
  epoch : Nat
  version : Nat
  shards : Shards
  plan : Plan
  scope : Option Scope

/-- What a window of hits is cached under.  A change of the index changes the generation, and one of
the schema the version. -/
structure WindowKey where
  table : String
  query : String
  scope : Option Scope
  epoch : Nat
  version : Nat
  start : Nat
  count : Nat
  generation : Nat
  deriving DecidableEq

abbrev WindowCache := Cache WindowKey (List Hit)

def scorer : Scorer := BM25.standard.score

namespace Prepared

/-- A query is read even if there is no such table, which then has no hits. -/
def prepare (c : Catalog) (analyzers : Analyzers) (table query : String) :
    Except Error (Option Prepared) := do
  let parsed ← Query.parse allField query
  match c.get? table with
  | none => return none
  | some t =>
    let plan ← Plan.ofQuery t.schema analyzers parsed
    return some ⟨t.name, query, t.epoch, t.version, t.shards, plan.simplify, none⟩

def restrict (p : Prepared) (filters : List Plan) (scope : Scope) : Prepared :=
  if filters = [] then p
  else { p with plan := .allOf (p.plan :: filters), scope := some scope }

def key (p : Prepared) (start count : Nat) : WindowKey :=
  ⟨p.table, p.query, p.scope, p.epoch, p.version, start, count, p.shards.generation⟩

/-- A window of the hits, from the cache if it is there.  A failure is not kept. -/
def window (p : Prepared) (start count : Nat) (cache : WindowCache) :
    Except Error (List Hit) × WindowCache :=
  if count = 0 then (.ok [], cache)
  else match cache.get? (p.key start count) with
    | (some hits, cache) => (.ok hits, cache)
    | (none, cache) =>
      match p.plan.window scorer p.shards start count with
      | .ok hits => (.ok hits, cache.put (p.key start count) hits)
      | .error e => (.error e, cache)

def count (p : Prepared) : Except Error Nat := p.plan.count scorer p.shards

def matched (p : Prepared) : Except Error (List (Segment × DocSet)) :=
  p.shards.mapM fun s => return (s, (← p.plan.run scorer p.shards s).docs)

end Prepared

end Corpus
