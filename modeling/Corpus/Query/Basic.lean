import Corpus.Number.Binary

/-! Queries as they are written: patterns for the values of single fields, combined by clauses that
must, should or must not match. -/

namespace Corpus

open Number

/-- What is asked of a field.  The bounds of a range are as written, `none` being an open one. -/
inductive Pattern
  | term (value : String)
  | phrase (text : String)
  | prefixed (start : String)
  | wildcard (glob : String)
  | range (lower upper : Option String) (includeLower includeUpper : Bool)
  deriving DecidableEq

inductive Query
  | matchAll
  | field (name : String) (pattern : Pattern) (boost : Option Binary32)
  | bool (must should mustNot : List Query) (boost : Option Binary32)

namespace Query

def boosted (boost : Binary32) : Query → Query
  | .matchAll => .bool [.matchAll] [] [] (some boost)
  | .field name pattern _ => .field name pattern (some boost)
  | .bool must should mustNot _ => .bool must should mustNot (some boost)

end Query

inductive Occur
  | must | should | mustNot
  deriving DecidableEq

structure Clause where
  occur : Occur
  query : Query

namespace Clause

def pick (occur : Occur) (clauses : List Clause) : List Query :=
  (clauses.filter (·.occur = occur)).map (·.query)

/-- Clauses side by side.  A single one needs no combination unless it carries a sign. -/
def combine : List Clause → Query
  | [⟨.should, q⟩] => q
  | clauses => .bool (pick .must clauses) (pick .should clauses) (pick .mustNot clauses) none

/-- Clauses joined by AND are all required, except for those that are prohibited. -/
def chain : List Clause → Clause
  | [c] => c
  | clauses =>
    ⟨.should, .bool ((clauses.filter (·.occur ≠ .mustNot)).map (·.query)) []
      (pick .mustNot clauses) none⟩

end Clause

end Corpus
