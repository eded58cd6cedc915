import Corpus.Value

/-! Declared columns of a table.  A record may hold other columns as well. -/

namespace Corpus

inductive ColumnType
  | string | integer | long | float | double | boolean | binary | facet
  deriving DecidableEq

namespace ColumnType

def name : ColumnType → String
  | .string => "String"
  | .integer => "Integer"
  | .long => "Long"
  | .float => "Float"
  | .double => "Double"
  | .boolean => "Boolean"
  | .binary => "Binary"
  | .facet => "Facet"

def all : List ColumnType := [.string, .integer, .long, .float, .double, .boolean, .binary, .facet]

def ofName? (name : String) : Option ColumnType := all.find? (·.name = name)

def isNumeric : ColumnType → Bool
  | .integer | .long | .float | .double => true
  | _ => false

end ColumnType

def Value.type? : Value → Option ColumnType
  | .null => none
  | .string _ => some .string
  | .integer _ => some .integer
  | .long _ => some .long
  | .float _ => some .float
  | .double _ => some .double
  | .boolean _ => some .boolean
  | .binary _ => some .binary
  | .facet _ => some .facet

structure Column where
  name : String
  type : ColumnType
  indexed : Bool
  scored : Bool
  analyzer : Option String
  deriving DecidableEq

structure Schema where
  columns : List Column
  primaryKeys : List String
  deriving DecidableEq

namespace Schema

def empty : Schema := ⟨[], []⟩

def isEmpty (s : Schema) : Bool := s.columns.isEmpty && s.primaryKeys.isEmpty

def column? (s : Schema) (name : String) : Option Column := s.columns.find? (·.name = name)

def analyzer? (s : Schema) (name : String) : Option String := s.column? name >>= Column.analyzer

/-- Declares a column in place of those of its name. -/
def declare (s : Schema) (c : Column) : Schema :=
  { s with columns := s.columns.filter (·.name ≠ c.name) ++ [c] }

def addColumn (s : Schema) (name : String) (type : ColumnType) (indexed : Bool) : Schema :=
  s.declare ⟨name, type, indexed, false, none⟩

def addText (s : Schema) (name : String) (analyzer : Option String) : Schema :=
  s.declare ⟨name, .string, true, false, analyzer⟩

def addFacet (s : Schema) (name : String) : Schema := s.addColumn name .facet true

def addScore (s : Schema) (name : String) (type : ColumnType) : Schema :=
  s.declare ⟨name, type, true, true, none⟩

def withKeys (s : Schema) (keys : List String) : Schema := { s with primaryKeys := keys }

end Schema

end Corpus
