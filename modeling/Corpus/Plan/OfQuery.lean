import Corpus.Analysis.Analyzer
import Corpus.Indexing
import Corpus.Number.Numeral
import Corpus.Plan.Basic
import Corpus.Query.Basic

/-! Planning: how a query is answered under a schema.  A value of an undeclared field is looked up
wherever it could have been indexed. -/

namespace Corpus.Plan

open Number Text

/-- One token is a term, several are a phrase, and a text without tokens matches nothing. -/
def ofTokens (field : String) (boost : Binary32) : List Token → Plan
  | [] => .nothing
  | [t] => .leaf (.term field t.text) boost
  | t :: ts =>
    .leaf (.phrase field ((t :: ts).map fun u => (u.text, u.position - t.position))) boost

def ofText (field text : String) (boost : Binary32) (a : Analyzer) : Plan :=
  ofTokens field boost (a.analyze text)

def equalTo (field : String) (x : Binary64) (boost : Binary32) : Plan :=
  .leaf (.numbers field (.included x) (.included x)) boost

def anyNumber (field : String) (boost : Binary32) : Plan :=
  .leaf (.numbers field .unbounded .unbounded) boost

def number? (text : String) : Option Binary64 := Binary.ofText? (trimmed text)

def number (field text : String) : Except Error Binary64 :=
  match number? text with
  | some x => .ok x
  | none => .error (.notNumber field text)

/-- Letters of a pattern are lowercased where those of the indexed tokens are. -/
def cased (a : Analyzer) (text : String) : String := if a.lowercases then lowered text else text

def ofValue (schema : Schema) (analyzers : Analyzers) (field text : String) (boost : Binary32) :
    Except Error Plan :=
  match schema.indexing field with
  | .keyword => .ok (.leaf (.term field text) boost)
  | .text a => (analyzers.resolve a).map (ofText field text boost)
  | .flag => .ok (.leaf (.term field (lowered (trimmed text))) boost)
  | .number => (number field text).map (equalTo field · boost)
  | .facet => .ok (.leaf (.under field (pathOfText text)) boost)
  | .bytes | .hidden => .ok .nothing
  | .anywhere =>
    let tokens := analyzers.default.analyze text
    .ok (anyOf
      ((if tokens = [] then [] else [ofTokens field boost tokens]) ++
        ((number? text).map (equalTo field · boost)).toList ++
        (if pathOfText text = [] then [] else [.leaf (.under field (pathOfText text)) boost])))

def ofPrefix (schema : Schema) (analyzers : Analyzers) (field start : String) (boost : Binary32) :
    Except Error Plan :=
  let everyNumber := if start = "" then [anyNumber field boost] else []
  let everyPath := if start = "" then [.leaf (.under field []) boost] else []
  match schema.indexing field with
  | .keyword => .ok (.leaf (.prefixed field start) boost)
  | .text a => (analyzers.resolve a).map fun a => .leaf (.prefixed field (cased a start)) boost
  | .flag => .ok (.leaf (.prefixed field (lowered start)) boost)
  | .number => .ok (anyOf everyNumber)
  | .facet => .ok (anyOf everyPath)
  | .bytes | .hidden => .ok .nothing
  | .anywhere =>
    .ok (anyOf (.leaf (.prefixed field (cased analyzers.default start)) boost ::
      (everyNumber ++ everyPath)))

def ofWildcard (schema : Schema) (analyzers : Analyzers) (field glob : String)
    (boost : Binary32) : Except Error Plan :=
  let search (a : Analyzer) : Plan := .leaf (.wildcard field (cased a glob)) boost
  match schema.indexing field with
  | .keyword => .ok (search analyzers.keyword)
  | .text a => (analyzers.resolve a).map search
  | .flag | .anywhere => .ok (search analyzers.default)
  | .number | .facet | .bytes | .hidden => .ok .nothing

def bound (field : String) (included : Bool) : Option String → Except Error Bound
  | none => .ok .unbounded
  | some text => (number field text).map fun x => if included then .included x else .excluded x

def ofRange (schema : Schema) (field : String) (lower upper : Option String)
    (includeLower includeUpper : Bool) (boost : Binary32) : Except Error Plan :=
  match schema.indexing field with
  | .number | .anywhere => do
    let lower ← bound field includeLower lower
    let upper ← bound field includeUpper upper
    return .leaf (.numbers field lower upper) boost
  | .hidden => .ok .nothing
  | .keyword | .text _ | .flag | .facet | .bytes => .error (.rangeOnText field)

def ofPattern (schema : Schema) (analyzers : Analyzers) (field : String) (boost : Binary32) :
    Pattern → Except Error Plan
  | .term text | .phrase text => ofValue schema analyzers field text boost
  | .prefixed start => ofPrefix schema analyzers field start boost
  | .wildcard glob => ofWildcard schema analyzers field glob boost
  | .range lower upper includeLower includeUpper =>
    ofRange schema field lower upper includeLower includeUpper boost

mutual

def ofQuery (schema : Schema) (analyzers : Analyzers) : Query → Except Error Plan
  | .matchAll => .ok (.leaf .all 1)
  | .field name pattern boost => ofPattern schema analyzers name (boost.getD 1) pattern
  | .bool must should mustNot boost => do
    let must ← ofQueries schema analyzers must
    let should ← ofQueries schema analyzers should
    let mustNot ← ofQueries schema analyzers mustNot
    return .bool must should mustNot (boost.getD 1)

def ofQueries (schema : Schema) (analyzers : Analyzers) : List Query → Except Error (List Plan)
  | [] => .ok []
  | q :: qs => do
    let p ← ofQuery schema analyzers q
    let ps ← ofQueries schema analyzers qs
    return p :: ps

end

end Corpus.Plan
