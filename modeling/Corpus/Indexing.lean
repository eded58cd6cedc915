import Corpus.Record
import Corpus.Schema

/-! Where the values of a field are found in an index. -/

namespace Corpus

inductive Indexing
  | keyword
  | text (analyzer : Option String)
  | flag
  | number
  | facet
  | bytes
  | hidden
  /-- Not declared: each value is where its own type puts it. -/
  | anywhere
  deriving DecidableEq

def Column.indexing (c : Column) : Indexing :=
  if !c.indexed then .hidden
  else match c.type with
    | .string => .text c.analyzer
    | .boolean => .flag
    | .facet => .facet
    | .binary => .bytes
    | .integer | .long | .float | .double => .number

def Schema.indexing (s : Schema) (field : String) : Indexing :=
  if field = idField then .keyword
  else if field = timestampField then .number
  else if field = allField then .text none
  else ((s.column? field).map Column.indexing).getD .anywhere

end Corpus
