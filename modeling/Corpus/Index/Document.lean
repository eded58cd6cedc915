import Corpus.Analysis.Analyzer
import Corpus.Number.Numeral
import Corpus.Record

/-! Documents: records after analysis, reduced to what an index holds of them. -/

namespace Corpus

open Number Text

inductive Content
  | text (tokens : List Token)
  | number (x : Binary64)
  | facet (path : List String)
  deriving DecidableEq

structure Document where
  id : String
  timestamp : Int
  fields : List (String × Content)
  deriving DecidableEq

namespace Document

def typeOf? (schema : Schema) (name : String) (value : Value) : Option ColumnType :=
  match schema.column? name with
  | some c => if c.indexed then some c.type else none
  | none => value.type?

def number? : Value → Option Binary64
  | .string s => Binary.ofText? (trimmed s)
  | value => value.number?

/-- What is indexed of a value under a type.  Nulls and binary columns have no content. -/
def content? (schema : Schema) (analyzers : Analyzers) (name : String) (type : ColumnType)
    (value : Value) : Except Error (Option Content) :=
  let wrong := .error (.wrongType name type value)
  if value = .null then .ok none
  else match type with
    | .string => (analyzers.resolve (schema.analyzer? name)).map fun a =>
      some (.text (a.analyze value.text))
    | .integer | .long | .float | .double =>
      match number? value with
      | some x => .ok (some (.number x))
      | none => wrong
    | .boolean =>
      match value with
      | .boolean _ => .ok (some (.text (analyzers.keyword.analyze value.text)))
      | _ => wrong
    | .facet =>
      match value with
      | .facet path => .ok (some (.facet path))
      | .string s => .ok (some (.facet (pathOfText s)))
      | _ => wrong
    | .binary => .ok none

def contents (schema : Schema) (analyzers : Analyzers) :
    List (String × Value) → Except Error (List (String × Content × Bool))
  | [] => .ok []
  | (name, value) :: rest => do
    let first? ← match typeOf? schema name value with
      | none => pure none
      | some type =>
        (content? schema analyzers name type value).map (·.map ((name, ·, type == .string)))
    return first?.toList ++ (← contents schema analyzers rest)

/-- The tokens of further text after `all`, two positions after the last of them. -/
def append (all tokens : List Token) : List Token :=
  let base := (all.getLast?.map (·.position + 2)).getD 0
  all ++ tokens.map fun t => { t with position := base + t.position }

def allTokens (contents : List (String × Content × Bool)) : List Token :=
  contents.foldl (fun all (_, content, isText) =>
    match content, isText with
    | .text tokens, true => append all tokens
    | _, _ => all) []

/-- The columns come in the order of their names, and all their text together comes last. -/
def ofRecord (schema : Schema) (analyzers : Analyzers) (r : Record) : Except Error Document := do
  let contents ← contents schema analyzers r.values.entries
  let all := allTokens contents
  return {
    id := r.id
    timestamp := r.timestamp
    fields :=
      (idField, .text (analyzers.keyword.analyze r.id)) ::
      (timestampField, .number (.ofInt r.timestamp)) ::
      (contents.map fun (name, content, _) => (name, content)) ++
      (if all = [] then [] else [(allField, .text all)]) }

end Document

end Corpus
