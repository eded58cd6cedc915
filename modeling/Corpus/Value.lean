import Corpus.Number.Numeral
import Corpus.Text.Blank
import Corpus.Text.Bytes
import Corpus.Text.Quoted

/-! The values that a record holds, and their written forms. -/

namespace Corpus

open Number Text

inductive Value
  | null
  | string (text : String)
  | integer (n : Int)
  | long (n : Int)
  | float (x : Binary32)
  | double (x : Binary64)
  | boolean (b : Bool)
  | binary (bytes : List UInt8)
  | facet (path : List String)
  deriving DecidableEq

namespace Value

def number? : Value → Option Binary64
  | .integer n | .long n => some (.ofInt n)
  | .float x => some (x.convert .double)
  | .double x => some x
  | _ => none

def text : Value → String
  | .null => ""
  | .string s => s
  | .integer n | .long n => toString n
  | .float x => x.text
  | .double x => x.text
  | .boolean b => if b then "true" else "false"
  | .binary bytes => hex bytes
  | .facet path => ",".intercalate path

def listed (items : List String) : String := "[" ++ ", ".intercalate items ++ "]"

def shown : Value → String
  | .null => "Null"
  | .string s => "String(" ++ quoted s ++ ")"
  | .integer n => "Integer(" ++ toString n ++ ")"
  | .long n => "Long(" ++ toString n ++ ")"
  | .float x => "Float(" ++ x.literal ++ ")"
  | .double x => "Double(" ++ x.literal ++ ")"
  | .boolean b => "Boolean(" ++ (if b then "true" else "false") ++ ")"
  | .binary bytes => "Binary(" ++ listed (bytes.map (toString ·.toNat)) ++ ")"
  | .facet path => "Facet(" ++ listed (path.map quoted) ++ ")"

end Value

def splitAtCommas : List Char → List (List Char)
  | [] => [[]]
  | c :: rest =>
    if c = ',' then [] :: splitAtCommas rest
    else match splitAtCommas rest with
      | [] => [[c]]
      | part :: parts => (c :: part) :: parts

/-- A path written with commas between its labels.  Empty labels are left out. -/
def pathOfText (text : String) : List String :=
  ((splitAtCommas text.toList).map trim).filterMap fun part =>
    if part = [] then none else some (String.ofList part)

end Corpus
