import Corpus.Error
import Corpus.Search.Evaluate

/-! Evaluation within limits: it fails where it comes upon a pattern that is too large. -/

namespace Corpus

def checkGlob (glob : String) : Except Error Unit :=
  if Text.isOversized glob.toList then .error .oversizedGlob else .ok ()

namespace Plan

mutual

def hasOversized : Plan → Bool
  | .leaf (.wildcard _ glob) _ => Text.isOversized glob.toList
  | .bool must should mustNot _ =>
    anyOversized must || anyOversized should || anyOversized mustNot
  | _ => false

def anyOversized : List Plan → Bool
  | [] => false
  | p :: ps => hasOversized p || anyOversized ps

end

mutual

/-- Whether evaluation comes upon an oversized pattern.  All required and optional parts are
evaluated, but prohibited ones only as long as documents are left. -/
def meetsOversized (score : Scorer) (shards : Shards) (s : Segment) : Plan → Bool
  | .leaf (.wildcard _ glob) _ => Text.isOversized glob.toList
  | .bool must should mustNot _ =>
    meetsInAny score shards s must || meetsInAny score shards s should ||
      meetsWhileLeft score shards s
        (matched s.live (evaluateEach score shards s must) (evaluateEach score shards s should) [])
        mustNot
  | _ => false

def meetsInAny (score : Scorer) (shards : Shards) (s : Segment) : List Plan → Bool
  | [] => false
  | p :: ps => meetsOversized score shards s p || meetsInAny score shards s ps

def meetsWhileLeft (score : Scorer) (shards : Shards) (s : Segment) (docs : DocSet) :
    List Plan → Bool
  | [] => false
  | p :: ps =>
    !docs.isEmpty &&
      (meetsOversized score shards s p ||
        meetsWhileLeft score shards s (docs.diff (evaluate score shards s p).docs) ps)

end

def run (score : Scorer) (shards : Shards) (p : Plan) (s : Segment) : Except Error Scored :=
  if p.hasOversized && p.meetsOversized score shards s then .error .oversizedGlob
  else .ok (p.evaluate score shards s)

end Plan

end Corpus
