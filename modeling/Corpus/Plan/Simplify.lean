import Corpus.Plan.Basic

/-! Simplifying plans from the leaves up, by rules that keep what a plan matches and how it scores. -/

namespace Corpus.Plan

open Number

def pruned? : Plan → Option Plan
  | .bool must should mustNot boost =>
    if must.any isNothing then some .nothing
    else if !should.any isNothing && !mustNot.any isNothing then none
    else
      let should' := should.filter (! isNothing ·)
      if must.isEmpty && !should.isEmpty && should'.isEmpty then some .nothing
      else some (.bool must should' (mustNot.filter (! isNothing ·)) boost)
  | _ => none

def unwrapped? : Plan → Option Plan
  | .bool must should [] boost =>
    match must ++ should with
    | [] => some (.leaf .all boost)
    | [p] => if boost.eq 1 then some p else none
    | _ => none
  | _ => none

inductive Rule
  | prune | unwrap
  deriving DecidableEq

def Rule.run? : Rule → Plan → Option Plan
  | .prune => pruned?
  | .unwrap => unwrapped?

def runAll (rules : List Rule) (p : Plan) : Plan :=
  rules.foldl (fun p rule => (rule.run? p).getD p) p

mutual

def simplifyBy (rules : List Rule) : Plan → Plan
  | .bool must should mustNot boost =>
    runAll rules (.bool (simplifyEachBy rules must) (simplifyEachBy rules should)
      (simplifyEachBy rules mustNot) boost)
  | .leaf criterion boost => runAll rules (.leaf criterion boost)
  | .nothing => runAll rules .nothing

def simplifyEachBy (rules : List Rule) : List Plan → List Plan
  | [] => []
  | p :: ps => simplifyBy rules p :: simplifyEachBy rules ps

end

def simplify (p : Plan) : Plan := simplifyBy [.prune, .unwrap] p

end Corpus.Plan
