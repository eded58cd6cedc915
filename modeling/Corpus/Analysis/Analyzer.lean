import Corpus.Analysis.Filter
import Corpus.Analysis.Tokenizer
import Corpus.Error

/-! Analyzers, which turn a text into the tokens it is indexed by, and the names they go by. -/

namespace Corpus

structure Analyzer where
  name : String
  tokenizer : Tokenizer
  filters : List Filter
  deriving DecidableEq

namespace Analyzer

def analyze (a : Analyzer) (text : String) : List Token :=
  a.filters.foldl (fun ts f => f.apply ts) (a.tokenizer.tokens text)

def lowercases (a : Analyzer) : Bool := a.filters.contains .lowercase

def standard : Analyzer := ⟨"standard", .standard, [.lowercase, .stopWords Filter.english, .stemmer]⟩

def simple : Analyzer := ⟨"simple", .standard, [.lowercase]⟩

def keyword : Analyzer := ⟨"keyword", .keyword, []⟩

end Analyzer

structure Analyzers where
  named : List (String × Analyzer)
  fallback : String
  deriving DecidableEq

namespace Analyzers

/-- The three standing analyzers, `fallback` naming the one for columns without an analyzer. -/
def withDefault (fallback : String) : Analyzers :=
  ⟨[("standard", .standard), ("simple", .simple), ("keyword", .keyword)], fallback⟩

def register (as : Analyzers) (name : String) (a : Analyzer) : Analyzers :=
  { as with named := (name, a) :: as.named }

def get? (as : Analyzers) (name : String) : Option Analyzer := as.named.lookup name

def default (as : Analyzers) : Analyzer :=
  ((as.get? as.fallback).or (as.get? "standard")).getD .standard

def keyword (as : Analyzers) : Analyzer := (as.get? "keyword").getD .keyword

def resolve (as : Analyzers) : Option String → Except Error Analyzer
  | none => .ok as.default
  | some name =>
    match as.get? name with
    | some a => .ok a
    | none => .error (.noAnalyzer name)

end Analyzers

end Corpus
