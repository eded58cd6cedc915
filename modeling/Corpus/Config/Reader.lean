import Corpus.Config
import Corpus.Text.Json

/-! Reading settings from a JSON text: an object with the settings by name, or an array of the first of
them in their order.  What is left out keeps its standard value, and members of other names are passed
over. -/

namespace Corpus.Config

open Text Json

def Setting.read? (c : Config) (s : List Char) : Setting → Option (Config × List Char)
  | .count _ _ set => (count? s).map fun (n, rest) => (set n c, rest)
  | .text _ _ set => (string? s).map fun (t, rest) => (set t c, rest)

/-- The members of an object from a name on; no setting may come twice. -/
def members? : (fuel : Nat) → (seen : List String) → Config → List Char → Option (Config × List Char)
  | 0, _, _, _ => none
  | fuel + 1, seen, c, s => do
    let (name, s) ← string? s
    let s ← colon? s
    let (c, s) ← match settings.find? (·.name = name) with
      | some setting => if seen.contains name then none else setting.read? c s
      | none => (skip? s).map (c, ·)
    match ← separator? '\x7d' s with
    | .close rest => some (c, rest)
    | .more rest => members? fuel (name :: seen) c rest

def elements? : List Setting → Config → List Char → Option (Config × List Char)
  | [], _, _ => none
  | setting :: settings, c, s => do
    let (c, s) ← setting.read? c s
    match ← separator? ']' s with
    | .close rest => some (c, rest)
    | .more rest => elements? settings c rest

def top? (s : List Char) : Option (Config × List Char) :=
  match s with
  | '\x7b' :: s =>
    match skipSpace s with
    | '\x7d' :: rest => some (standard, rest)
    | s => members? (s.length + 1) [] standard s
  | '[' :: s =>
    match skipSpace s with
    | ']' :: rest => some (standard, rest)
    | s => elements? settings standard s
  | _ => none

def ofText (text : String) : Except Error Config :=
  match top? (skipSpace text.toList) with
  | some (c, rest) => if skipSpace rest = [] then c.validate.map fun _ => c else .error .badConfig
  | none => .error .badConfig

end Corpus.Config
