import Corpus.Number.Binary

/-! Decimal numbers: reading one as a binary number, and the shortest one that reads back as a given
binary number. -/

namespace Corpus.Number

structure Decimal where
  digits : Nat
  exponent : Int
  deriving DecidableEq

namespace Decimal

def length (n : Nat) : Nat := (Nat.toDigits 10 n).length

/-- The magnitude nearest to the decimal.  Decimals beyond the format's range are settled by their
leading digit alone, so that no exponent is too large to be read. -/
def nearest (f : Format) (d : Decimal) : Nat :=
  let top := d.exponent + length d.digits
  if d.digits = 0 then 0
  else if f.scale < top then f.infinity
  else if top < -f.scale then 0
  else
    f.nearest ((d.digits * Nat.pow 10 d.exponent.toNat) <<< f.scale)
      (Nat.pow 10 (-d.exponent).toNat)

end Decimal

/-- The exponent `e` with `10 ^ (e - 1) ≤ num / den < 10 ^ e`, for a positive quotient. -/
def decimalTop (num den : Nat) : Int :=
  if den ≤ num then Decimal.length (num / den)
  else 1 - (Decimal.length ((den - 1) / num) : Int)

namespace Format

/-- Of the two decimals with `count` digits next to the magnitude, the nearer one that reads back. -/
def decimalOf? (f : Format) (magnitude : Nat) (count : Nat) : Option Decimal :=
  let num := f.units magnitude
  let den := 1 <<< f.scale
  let exponent := decimalTop num den - count
  let scaled := num * Nat.pow 10 (-exponent).toNat
  let grid := den * Nat.pow 10 exponent.toNat
  let below : Decimal := ⟨scaled / grid, exponent⟩
  let above : Decimal :=
    if scaled / grid + 1 = Nat.pow 10 count then ⟨1, exponent + count⟩ else ⟨scaled / grid + 1, exponent⟩
  let readsBack (d : Decimal) := d.nearest f = magnitude
  if readsBack below ∧ (2 * (scaled % grid) < grid ∨ ¬ readsBack above) then some below
  else if readsBack above then some above
  else none

def shortestFrom (f : Format) (magnitude : Nat) : (fuel count : Nat) → Option Decimal
  | 0, _ => none
  | fuel + 1, count =>
    (f.decimalOf? magnitude count).or (f.shortestFrom magnitude fuel (count + 1))

def exact (f : Format) (magnitude : Nat) : Decimal := ⟨f.units magnitude * Nat.pow 5 f.scale, -f.scale⟩

def shortest (f : Format) (magnitude : Nat) : Decimal :=
  (f.shortestFrom magnitude f.precision 1).getD (f.exact magnitude)

end Format

end Corpus.Number
