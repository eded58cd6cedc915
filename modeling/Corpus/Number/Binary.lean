/-! Binary floating-point numbers with one rounding per operation, to the nearest number and to the
even one of two.  A number is a sign and a magnitude, which is the exponent field and the fraction read
together as one natural number, so that a larger magnitude is a larger number. -/

namespace Corpus.Number

/-- Bits of the significand, the hidden one included, and of the exponent field. -/
structure Format where
  precision : Nat
  exponentBits : Nat
  deriving DecidableEq

namespace Format

def single : Format := ⟨24, 8⟩

def double : Format := ⟨53, 11⟩

def width (f : Format) : Nat := f.exponentBits + f.precision

/-- Magnitudes that share one exponent field. -/
def block (f : Format) : Nat := 1 <<< (f.precision - 1)

/-- The smallest positive number, the unit, is two to the power `-scale`. -/
def scale (f : Format) : Nat := (1 <<< (f.exponentBits - 1)) + f.precision - 3

def infinity (f : Format) : Nat := ((1 <<< f.exponentBits) - 1) * f.block

def quietNaN (f : Format) : Nat := f.infinity + f.block / 2

def units (f : Format) (magnitude : Nat) : Nat :=
  if magnitude < f.block then magnitude
  else (magnitude % f.block + f.block) <<< (magnitude / f.block - 1)

def roundHalfEven (num den : Nat) : Nat :=
  if 2 * (num % den) < den ∨ (2 * (num % den) = den ∧ num / den % 2 = 0) then num / den
  else num / den + 1

def nearest (f : Format) (num den : Nat) : Nat :=
  let shift := (num / den).log2 + 1 - f.precision
  min (shift * f.block + roundHalfEven num (den <<< shift)) f.infinity

end Format

structure Binary (f : Format) where
  negative : Bool
  magnitude : Nat
  deriving DecidableEq

abbrev Binary32 := Binary .single

abbrev Binary64 := Binary .double

namespace Binary

variable {f : Format}

def zero : Binary f := ⟨false, 0⟩

def negZero : Binary f := ⟨true, 0⟩

def infinity (negative : Bool) : Binary f := ⟨negative, f.infinity⟩

def nan (negative : Bool) : Binary f := ⟨negative, f.quietNaN⟩

/-- What an operation without a value answers; its NaN has the minus sign. -/
def invalid : Binary f := nan true

def isNaN (x : Binary f) : Bool := f.infinity < x.magnitude

def isInfinite (x : Binary f) : Bool := x.magnitude = f.infinity

def isFinite (x : Binary f) : Bool := x.magnitude < f.infinity

def isZero (x : Binary f) : Bool := x.magnitude = 0

def neg (x : Binary f) : Binary f := ⟨!x.negative, x.magnitude⟩

def rank (x : Binary f) : Int := if x.negative then -(x.magnitude : Int) else x.magnitude

def lt (x y : Binary f) : Bool := !x.isNaN && !y.isNaN && x.rank < y.rank

def le (x y : Binary f) : Bool := !x.isNaN && !y.isNaN && x.rank ≤ y.rank

def eq (x y : Binary f) : Bool := !x.isNaN && !y.isNaN && x.rank = y.rank

/-- A key for the order of all numbers: zeros differ by their sign, and a NaN stands beyond the
infinity of its sign. -/
def totalRank (x : Binary f) : Int := if x.negative then -1 - (x.magnitude : Int) else x.magnitude

def max (x y : Binary f) : Binary f :=
  if x.isNaN then y else if y.isNaN then x else if x.rank < y.rank then y else x

def units (x : Binary f) : Int :=
  if x.negative then -(f.units x.magnitude : Int) else f.units x.magnitude

def ofUnits (n : Int) : Binary f := ⟨n < 0, f.nearest n.natAbs 1⟩

def ofInt (n : Int) : Binary f := ofUnits (n * (1 <<< f.scale : Nat))

def ofNat (n : Nat) : Binary f := ofInt n

def add (x y : Binary f) : Binary f :=
  if x.isNaN then x
  else if y.isNaN then y
  else if x.isInfinite then
    if y.isInfinite && x.negative != y.negative then invalid else x
  else if y.isInfinite then y
  else if x.units + y.units = 0 then ⟨x.negative && y.negative, 0⟩
  else ofUnits (x.units + y.units)

def sub (x y : Binary f) : Binary f :=
  if x.isNaN then x else if y.isNaN then y else add x y.neg

def mul (x y : Binary f) : Binary f :=
  if x.isNaN then x
  else if y.isNaN then y
  else if x.isInfinite && y.isZero || x.isZero && y.isInfinite then invalid
  else if x.isInfinite || y.isInfinite then infinity (x.negative != y.negative)
  else ⟨x.negative != y.negative,
    f.nearest (f.units x.magnitude * f.units y.magnitude) (1 <<< f.scale)⟩

def div (x y : Binary f) : Binary f :=
  if x.isNaN then x
  else if y.isNaN then y
  else if x.isInfinite && y.isInfinite || x.isZero && y.isZero then invalid
  else if x.isInfinite || y.isZero then infinity (x.negative != y.negative)
  else if y.isInfinite then ⟨x.negative != y.negative, 0⟩
  else ⟨x.negative != y.negative,
    f.nearest (f.units x.magnitude <<< f.scale) (f.units y.magnitude)⟩

instance : Add (Binary f) := ⟨add⟩
instance : Sub (Binary f) := ⟨sub⟩
instance : Mul (Binary f) := ⟨mul⟩
instance : Div (Binary f) := ⟨div⟩
instance : Neg (Binary f) := ⟨neg⟩
instance (n : Nat) : OfNat (Binary f) n := ⟨ofNat n⟩

/-- Sums start at minus zero, which leaves every first summand as it is. -/
def sum (xs : List (Binary f)) : Binary f := xs.foldl add negZero

def convert (g : Format) (x : Binary f) : Binary g :=
  if x.isNaN then nan x.negative
  else if x.isInfinite then infinity x.negative
  else ⟨x.negative, g.nearest (f.units x.magnitude <<< g.scale) (1 <<< f.scale)⟩

def toBits (x : Binary f) : Nat := (if x.negative then 1 <<< (f.width - 1) else 0) + x.magnitude

def ofBits (bits : Nat) : Binary f :=
  ⟨bits.testBit (f.width - 1), bits % (1 <<< (f.width - 1))⟩

def log (x : Binary32) : Binary32 :=
  ofBits (Float32.log (Float32.ofBits (UInt32.ofNat x.toBits))).toBits.toNat

end Binary

end Corpus.Number
