import Corpus.Access.Permission
import Corpus.Schema
import Corpus.Text.Glob.Room

/-! Why a request fails.  An error is its cause; its kind and its message are read off the cause. -/

namespace Corpus

inductive ErrorKind
  | tableNotAvailable | index | timeout | store | unsupported | unauthorized | invalidArgument
  | parse | closed | io | internal
  deriving DecidableEq

namespace ErrorKind

def name : ErrorKind → String
  | .tableNotAvailable => "TableNotAvailable"
  | .index => "IndexError"
  | .timeout => "Timeout"
  | .store => "Store"
  | .unsupported => "Unsupported"
  | .unauthorized => "Unauthorized"
  | .invalidArgument => "InvalidArgument"
  | .parse => "Parse"
  | .closed => "Closed"
  | .io => "Io"
  | .internal => "Internal"

def all : List ErrorKind :=
  [.tableNotAvailable, .index, .timeout, .store, .unsupported, .unauthorized, .invalidArgument,
   .parse, .closed, .io, .internal]

def ofName? (name : String) : Option ErrorKind := all.find? (·.name = name)

end ErrorKind

inductive NumericRole
  | range | score
  deriving DecidableEq

def NumericRole.name : NumericRole → String
  | .range => "range"
  | .score => "score"

inductive Error
  | noTable (table : String)
  | closed
  | noAnalyzer (name : String)
  | badQuery (query rest : String)
  | notNumber (field text : String)
  | rangeOnText (field : String)
  | oversizedGlob
  | wrongType (column : String) (declared : ColumnType) (value : Value)
  | notFacetColumn (field : String)
  | notNumericColumn (field : String) (role : NumericRole)
  | badBucket (label : String)
  | overlap (first second : String)
  | noRangeField
  | missingKey (column : String)
  | zeroSetting (name : String)
  | denied (user : String) (permission : Permission)
  | pending (events milliseconds : Nat)
  | badConfig
  | badGroup
  | noFile
  /-- A failure outside of this library. -/
  | reported (kind : ErrorKind) (context : String)
  deriving DecidableEq

namespace Error

def kind : Error → ErrorKind
  | .noTable _ => .tableNotAvailable
  | .closed => .closed
  | .noAnalyzer _ | .badQuery .. | .notNumber .. | .rangeOnText _ | .oversizedGlob => .index
  | .wrongType .. | .notFacetColumn _ | .notNumericColumn .. => .index
  | .badBucket _ | .overlap .. | .noRangeField => .index
  | .missingKey _ | .zeroSetting _ => .invalidArgument
  | .denied .. => .unauthorized
  | .pending .. => .timeout
  | .badConfig | .badGroup => .parse
  | .noFile => .io
  | .reported kind _ => kind

def duration (milliseconds : Nat) : String :=
  if milliseconds = 0 then "0ns"
  else if milliseconds < 1000 then toString milliseconds ++ "ms"
  else
    let fraction := (toString (1000 + milliseconds % 1000)).toList.tail.reverse.dropWhile (· = '0')
    toString (milliseconds / 1000) ++
      (if fraction = [] then "" else "." ++ String.ofList fraction.reverse) ++ "s"

def message : Error → String
  | .noTable table => s!"table '{table}' does not exist"
  | .closed => "data service has been destroyed"
  | .noAnalyzer name => s!"Analyzer '{name}' not found"
  | .badQuery query rest =>
    s!"invalid query '{query}': " ++
      (if rest = "" then "unexpected end of query"
      else "unexpected input at '" ++ String.ofList (rest.toList.take 24) ++ "'")
  | .notNumber field text => s!"field '{field}' is numeric but '{text}' is not a number"
  | .rangeOnText field => s!"range query on non-numeric field '{field}'"
  | .oversizedGlob =>
    s!"Invalid wildcard: Compiled regex exceeds size limit of {Text.roomLimit} bytes."
  | .wrongType column declared value =>
    s!"column '{column}' is declared {declared.name} but holds {value.shown}"
  | .notFacetColumn field => s!"'{field}' is not an indexed facet column"
  | .notNumericColumn field role =>
    s!"'{field}' is not an indexed numeric column, cannot be a {role.name} field"
  | .badBucket label => s!"invalid range bucket '{label}'"
  | .overlap first second => s!"range buckets '{first}' and '{second}' overlap"
  | .noRangeField => "range drilldown requires a range field"
  | .missingKey column => s!"record is missing primary key column '{column}'"
  | .zeroSetting name => s!"config field '{name}' must be greater than zero"
  | .denied user permission => s!"user '{user}' lacks permission {permission.name}"
  | .pending events milliseconds =>
    s!"{events} index events still pending after {duration milliseconds}"
  | .badConfig => "the configuration cannot be read"
  | .badGroup => "the record group cannot be read"
  | .noFile => "the file cannot be read"
  | .reported _ context => context

def display (e : Error) : String := e.kind.name ++ ": " ++ e.message

def isMissingTable (e : Error) : Bool := e.kind = .tableNotAvailable

end Error

end Corpus
