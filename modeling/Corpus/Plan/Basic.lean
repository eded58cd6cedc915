import Corpus.Number.Key

/-! Plans: queries after analysis, down to the words, numbers and paths that an index holds. -/

namespace Corpus

open Number

/-- What is looked up in one index.  The terms of a phrase carry their distance to the first. -/
inductive Criterion
  | all
  | term (field text : String)
  | phrase (field : String) (terms : List (String × Nat))
  | prefixed (field start : String)
  | wildcard (field glob : String)
  | numbers (field : String) (lower upper : Bound)
  | under (field : String) (path : List String)
  deriving DecidableEq

inductive Plan
  | nothing
  | leaf (criterion : Criterion) (boost : Binary32)
  | bool (must should mustNot : List Plan) (boost : Binary32)

namespace Plan

def isNothing : Plan → Bool
  | .nothing => true
  | _ => false

def anyOf : List Plan → Plan
  | [] => .nothing
  | [p] => p
  | plans => .bool [] plans [] 1

def allOf (plans : List Plan) : Plan := .bool plans [] [] 1

end Plan

end Corpus
