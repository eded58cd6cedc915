import Corpus.Number.Numeral
import Corpus.Text.Bytes
import Corpus.Text.Reading

/-! JSON texts: reading strings and counts off the front of a text, and passing over any value. -/

namespace Corpus.Text.Json

open Number

def hexFour? (a b c d : Char) : Option Nat := do
  return 4096 * (← hexValue? a) + 256 * (← hexValue? b) + 16 * (← hexValue? c) + (← hexValue? d)

def escaped? (c : Char) : Option Char :=
  [('"', '"'), ('\\', '\\'), ('/', '/'), ('b', '\x08'), ('f', '\x0c'), ('n', '\n'), ('r', '\r'),
   ('t', '\t')].lookup c

def unitsChar? (unit : Nat) (low? : Option Nat) : Option Char :=
  match low? with
  | none => if 0xD800 ≤ unit ∧ unit < 0xE000 then none else some (Char.ofNat unit)
  | some low =>
    if 0xD800 ≤ unit ∧ unit < 0xDC00 ∧ 0xDC00 ≤ low ∧ low < 0xE000 then
      some (Char.ofNat (0x10000 + (unit - 0xD800) * 0x400 + (low - 0xDC00)))
    else none

def chars? : List Char → Option (List Char × List Char)
  | [] => none
  | '"' :: s => some ([], s)
  | '\\' :: 'u' :: a :: b :: c :: d :: s => do
    let unit ← hexFour? a b c d
    match unitsChar? unit none with
    | some ch =>
      let (cs, rest) ← chars? s
      return (ch :: cs, rest)
    | none =>
      match s with
      | '\\' :: 'u' :: a' :: b' :: c' :: d' :: t => do
        let ch ← unitsChar? unit (some (← hexFour? a' b' c' d'))
        let (cs, rest) ← chars? t
        return (ch :: cs, rest)
      | _ => none
  | '\\' :: e :: s => do
    let ch ← escaped? e
    let (cs, rest) ← chars? s
    return (ch :: cs, rest)
  | c :: s =>
    if c < ' ' then none
    else do
      let (cs, rest) ← chars? s
      return (c :: cs, rest)
termination_by s => s.length

def string? : List Char → Option (String × List Char)
  | '"' :: s => (chars? s).map fun (cs, rest) => (String.ofList cs, rest)
  | _ => none

/-- Passes over the rest of a string, whose escapes need not stand for characters. -/
def skipString? : List Char → Option (List Char)
  | [] => none
  | '"' :: s => some s
  | '\\' :: 'u' :: a :: b :: c :: d :: s => do
    let _ ← hexFour? a b c d
    skipString? s
  | '\\' :: e :: s => do
    let _ ← escaped? e
    skipString? s
  | c :: s => if c < ' ' then none else skipString? s

def skipDigits? (s : List Char) : Option (List Char) :=
  if s.head?.any isDigit then some (s.dropWhile isDigit) else none

def skipInteger? : List Char → Option (List Char)
  | '0' :: s => if s.head?.any isDigit then none else some s
  | s => skipDigits? s

def skipFraction? : List Char → Option (List Char)
  | '.' :: s => skipDigits? s
  | s => some s

def skipExponent? : List Char → Option (List Char)
  | c :: s => if c = 'e' ∨ c = 'E' then skipDigits? (readSign s).2 else some (c :: s)
  | [] => some []

def skipNumber? (s : List Char) : Option (List Char) :=
  ((strip? ['-'] s).getD s |> skipInteger?) >>= skipFraction? >>= skipExponent?

def count? (s : List Char) : Option (Nat × List Char) := do
  let rest ← skipInteger? s
  let n := ofDigits (s.takeWhile isDigit)
  if rest.head?.any (['.', 'e', 'E'].contains ·) || UInt64.size ≤ n then none else some (n, rest)

inductive Separator
  | close (rest : List Char)
  | more (rest : List Char)

def separator? (close : Char) (s : List Char) : Option Separator :=
  match skipSpace s with
  | [] => none
  | c :: rest =>
    if c = close then some (.close rest)
    else if c = ',' then some (.more (skipSpace rest))
    else none

def colon? (s : List Char) : Option (List Char) := (strip? [':'] (skipSpace s)).map skipSpace

mutual

def skipValue? : (fuel : Nat) → List Char → Option (List Char)
  | 0, _ => none
  | fuel + 1, s =>
    match s with
    | '"' :: t => skipString? t
    | '[' :: t =>
      match skipSpace t with
      | ']' :: rest => some rest
      | t => skipElements? fuel t
    | '\x7b' :: t =>
      match skipSpace t with
      | '\x7d' :: rest => some rest
      | t => skipMembers? fuel t
    | 't' :: t => strip? ['r', 'u', 'e'] t
    | 'f' :: t => strip? ['a', 'l', 's', 'e'] t
    | 'n' :: t => strip? ['u', 'l', 'l'] t
    | s => skipNumber? s

def skipElements? : (fuel : Nat) → List Char → Option (List Char)
  | 0, _ => none
  | fuel + 1, s => do
    match ← separator? ']' (← skipValue? fuel s) with
    | .close rest => some rest
    | .more rest => skipElements? fuel rest

def skipMembers? : (fuel : Nat) → List Char → Option (List Char)
  | 0, _ => none
  | fuel + 1, s => do
    let s ← strip? ['"'] s
    match ← separator? '\x7d' (← skipValue? fuel (← colon? (← skipString? s))) with
    | .close rest => some rest
    | .more rest => skipMembers? fuel rest

end

/-- Passes over a value.  Two steps go at most with each character, so that twice the length of the
text is enough. -/
def skip? (s : List Char) : Option (List Char) := skipValue? (2 * s.length + 2) s

end Corpus.Text.Json
