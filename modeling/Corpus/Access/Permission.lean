/-! What a user may be granted. -/

namespace Corpus

inductive Permission
  | createTable | dropTable | listTables | getSchema | setSchema | putRecord | getRecord
  | deleteRecord | search | clearIndex
  deriving DecidableEq

namespace Permission

def name : Permission → String
  | .createTable => "CreateTable"
  | .dropTable => "DropTable"
  | .listTables => "ListTables"
  | .getSchema => "GetSchema"
  | .setSchema => "SetSchema"
  | .putRecord => "PutRecord"
  | .getRecord => "GetRecord"
  | .deleteRecord => "DeleteRecord"
  | .search => "Search"
  | .clearIndex => "ClearIndex"

def all : List Permission :=
  [.createTable, .dropTable, .listTables, .getSchema, .setSchema, .putRecord, .getRecord,
   .deleteRecord, .search, .clearIndex]

def ofName? (name : String) : Option Permission := all.find? (·.name = name)

end Permission

end Corpus
