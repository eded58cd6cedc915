import Corpus.Data.Dict
import Corpus.Text.Case
import Corpus.Value

/-! Records: named values of one table, with an identity and a time. -/

namespace Corpus

/-- Bounds of time that stand for no bound. -/
def timeMin : Int := -0x8000000000000000

def timeMax : Int := 0x7fffffffffffffff

def idField : String := "_id"

def timestampField : String := "_timestamp"

def allField : String := "_all"

structure Record where
  id : String
  table : String
  timestamp : Int
  values : Dict String Value
  deriving DecidableEq

namespace Record

def addValue (r : Record) (name : String) (value : Value) : Record :=
  { r with values := r.values.insert name value }

def project (r : Record) : Option (List String) → Record
  | none => r
  | some columns => { r with values := r.values.filter fun name _ => columns.contains name }

end Record

/-- Table names differ neither by case nor by white space around them. -/
def tableName (text : String) : String := Text.lowered (Text.trimmed text)

end Corpus
