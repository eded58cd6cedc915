import Corpus.Number.Shortest

/-! The written form of numbers.  Reading takes decimal numerals with an optional fraction and
exponent, and words for the infinities and NaN.  Writing has two forms: plain digits, and literals,
which keep a decimal point or an exponent so that they show what they are. -/

namespace Corpus.Number

def isDigit (c : Char) : Bool := '0' ≤ c && c ≤ '9'

def ofDigits (ds : List Char) : Nat := ds.foldl (fun n d => 10 * n + (d.toNat - '0'.toNat)) 0

def readSign : List Char → Bool × List Char
  | '-' :: s => (true, s)
  | '+' :: s => (false, s)
  | s => (false, s)

def readExponent : List Char → Option Int
  | [] => some 0
  | mark :: s =>
    let (negative, ds) := readSign s
    if (mark = 'e' ∨ mark = 'E') ∧ ds ≠ [] ∧ ds.all isDigit then
      some (if negative then -(ofDigits ds : Int) else ofDigits ds)
    else none

def readDecimal (s : List Char) : Option Decimal :=
  let whole := s.takeWhile isDigit
  let (fraction, rest) := match s.dropWhile isDigit with
    | '.' :: t => (t.takeWhile isDigit, t.dropWhile isDigit)
    | t => ([], t)
  if whole ++ fraction = [] then none
  else (readExponent rest).map fun e => ⟨ofDigits (whole ++ fraction), e - fraction.length⟩

def readWord (s : List Char) : Option (Bool → Binary f) :=
  let word := s.map Char.toLower
  if word = "inf".toList ∨ word = "infinity".toList then some Binary.infinity
  else if word = "nan".toList then some Binary.nan
  else none

namespace Binary

variable {f : Format}

def ofText? (text : String) : Option (Binary f) :=
  let (negative, s) := readSign text.toList
  match readDecimal s with
  | some d => some ⟨negative, d.nearest f⟩
  | none => (readWord s).map (· negative)

end Binary

namespace Decimal

def chars (d : Decimal) : List Char := Nat.toDigits 10 d.digits

def lead (d : Decimal) : Int := d.exponent + (d.chars.length - 1 : Int)

def split (d : Decimal) : List Char × List Char :=
  match d.exponent with
  | .ofNat n => (d.chars ++ List.replicate n '0', [])
  | .negSucc n =>
    if n + 1 < d.chars.length then d.chars.splitAt (d.chars.length - (n + 1))
    else (['0'], List.replicate (n + 1 - d.chars.length) '0' ++ d.chars)

def positional (d : Decimal) : String :=
  match d.split with
  | (whole, []) => String.ofList whole
  | (whole, fraction) => String.ofList (whole ++ '.' :: fraction)

def pointed (d : Decimal) : String :=
  match d.split with
  | (whole, []) => String.ofList (whole ++ ['.', '0'])
  | (whole, fraction) => String.ofList (whole ++ '.' :: fraction)

def scientific (d : Decimal) : String :=
  match d.chars with
  | [] => ""
  | [c] => String.ofList [c] ++ "e" ++ toString d.lead
  | c :: cs => String.ofList (c :: '.' :: cs) ++ "e" ++ toString d.lead

end Decimal

namespace Binary

variable {f : Format}

def signed (x : Binary f) (body : String) : String := if x.negative then "-" ++ body else body

/-- Writes `x` with the fewest digits that read back as it, in the form chosen by `form`. -/
def write (form : Decimal → String) (zero : String) (x : Binary f) : String :=
  if x.isNaN then "NaN"
  else x.signed
    (if x.isInfinite then "inf" else if x.isZero then zero else form (f.shortest x.magnitude))

def text (x : Binary f) : String := x.write Decimal.positional "0"

/-- Digits with a point for numbers from `1e-4` to below `1e16`, an exponent for all others. -/
def literal (x : Binary f) : String :=
  x.write (fun d => if d.lead < -4 ∨ 16 ≤ d.lead then d.scientific else d.pointed) "0.0"

end Binary

end Corpus.Number
