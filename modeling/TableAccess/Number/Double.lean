/-!
Floating-point numbers as bit patterns.

A `Double` is its 64 bits, so two doubles are equal exactly when they are the same number written
the same way, and a number that is sent out and read back can be compared bit for bit. Arithmetic is
done on exact ratios of natural numbers and rounded once, to the nearest pattern, a tie going to the
even one: `BinaryFormat.nearest` is that one rounding, shared by the 64-bit and the 32-bit format.
-/

namespace TableAccess

/-- A binary format: how many bits follow the leading one, the exponent field of the infinities, and
how many binary places the smallest step has. -/
structure BinaryFormat where
  fractionBits : Nat
  topField : Nat
  places : Nat
  deriving DecidableEq

namespace BinaryFormat

/-- The 64-bit format. -/
def double : BinaryFormat := ⟨52, 2047, 1074⟩

/-- The 32-bit format. -/
def single : BinaryFormat := ⟨23, 255, 149⟩

/-- The pattern of positive infinity: the first pattern past the finite ones. -/
def infinity (f : BinaryFormat) : Nat := f.topField * Nat.pow 2 f.fractionBits

/-- The quotient `num / den` rounded to a whole number, a half going to the even neighbour. -/
def divEven (num den : Nat) : Nat :=
  let q := num / den
  let r := num % den
  if 2 * r < den then q
  else if den < 2 * r then q + 1
  else q + q % 2

/-- The quotient `num / den` counted in steps of `2 ^ e / 2 ^ places`, rounded to even. -/
def steps (f : BinaryFormat) (num den e : Nat) : Nat :=
  divEven (num * Nat.pow 2 f.places) (den * Nat.pow 2 e)

/-- The least number of doublings of the smallest step after which `num / den` has at most
`fractionBits + 1` digits. -/
def shift (f : BinaryFormat) (num den : Nat) : Nat :=
  Nat.log2 (num * Nat.pow 2 f.places / den) - f.fractionBits

/-- The pattern, without its sign, that is nearest to `num / den`.

Patterns of equal exponent are evenly spaced and patterns run on without a gap from one exponent to
the next, so the pattern is the exponent times `2 ^ fractionBits` plus the count of steps; a count
that rounds up to the next power of two lands on the next exponent by itself. -/
def nearest (f : BinaryFormat) (num den : Nat) : Nat :=
  let e := f.shift num den
  min f.infinity (e * Nat.pow 2 f.fractionBits + f.steps num den e)

/-- The exponent field of a pattern without sign. -/
def field (f : BinaryFormat) (pattern : Nat) : Nat := pattern / Nat.pow 2 f.fractionBits

/-- The trailing bits of a pattern. -/
def fraction (f : BinaryFormat) (pattern : Nat) : Nat := pattern % Nat.pow 2 f.fractionBits

/-- A finite pattern stands for `significand · 2 ^ exponent / 2 ^ places`. -/
def significand (f : BinaryFormat) (pattern : Nat) : Nat :=
  if f.field pattern = 0 then f.fraction pattern else Nat.pow 2 f.fractionBits + f.fraction pattern

/-- The doublings of the smallest step in a finite pattern. -/
def exponent (f : BinaryFormat) (pattern : Nat) : Nat := f.field pattern - 1

/-- The finite value of a pattern as a ratio. -/
def ratio (f : BinaryFormat) (pattern : Nat) : Nat × Nat :=
  (f.significand pattern * Nat.pow 2 (f.exponent pattern), Nat.pow 2 f.places)

end BinaryFormat

/-- A 64-bit floating-point number, held as its bits. -/
structure Double where
  bits : UInt64
  deriving DecidableEq

/-- A 32-bit floating-point number, held as its bits. -/
structure Single where
  bits : UInt32
  deriving DecidableEq

/-- The highest of 32 bits. -/
def Single.signBit : Nat := 0x80000000

/-- The highest fraction bit of the 32-bit format. -/
def Single.quietBit : Nat := 0x400000

/-- How many fractions of the 64-bit format there are to one of the 32-bit format. -/
def Single.step : Nat := 0x20000000

namespace Double

/-- The highest of 64 bits. -/
def signBit : Nat := 0x8000000000000000

/-- The highest fraction bit. -/
def quietBit : Nat := 0x8000000000000

/-- Whether the sign bit is set. -/
def negative (x : Double) : Bool := decide (signBit ≤ x.bits.toNat)

/-- The pattern without its sign. -/
def magnitude (x : Double) : Nat := x.bits.toNat % signBit

def isNaN (x : Double) : Bool := decide (BinaryFormat.double.infinity < x.magnitude)

def isInfinite (x : Double) : Bool := x.magnitude == BinaryFormat.double.infinity

def isFinite (x : Double) : Bool := decide (x.magnitude < BinaryFormat.double.infinity)

/-- A sign and a pattern put together. -/
def ofMagnitude (negative : Bool) (magnitude : Nat) : Double :=
  ⟨UInt64.ofNat (if negative then signBit + magnitude else magnitude)⟩

def zero : Double := ⟨0⟩

/-- The same number with the other sign. -/
def neg (x : Double) : Double := ofMagnitude (!x.negative) x.magnitude

/-- The double nearest to a natural number. -/
def ofNat (n : Nat) : Double := ofMagnitude false (BinaryFormat.double.nearest n 1)

/-- The double nearest to an integer. -/
def ofInt (n : Int) : Double :=
  ofMagnitude (decide (n < 0)) (BinaryFormat.double.nearest n.natAbs 1)

/-- The double nearest to `x · 10 ^ n` rounded to a double first, for finite `x` of positive sign.
-/
def timesPowerOfTen (x : Double) (n : Nat) : Double :=
  let (a, b) := BinaryFormat.double.ratio x.magnitude
  let (c, d) := BinaryFormat.double.ratio (BinaryFormat.double.nearest (Nat.pow 10 n) 1)
  ofMagnitude false (BinaryFormat.double.nearest (a * c) (b * d))

/-- The double nearest to `x` over the double nearest to `10 ^ n`, for finite `x` of positive sign.
-/
def overPowerOfTen (x : Double) (n : Nat) : Double :=
  let (a, b) := BinaryFormat.double.ratio x.magnitude
  let (c, d) := BinaryFormat.double.ratio (BinaryFormat.double.nearest (Nat.pow 10 n) 1)
  ofMagnitude false (BinaryFormat.double.nearest (a * d) (b * c))

/-- The nearest single. A number that is not a number keeps its sign and its leading payload bits,
with the quiet bit set. -/
def toSingle (x : Double) : Single :=
  let sign := if x.negative then Single.signBit else 0
  let pattern :=
    if x.isNaN then
      BinaryFormat.single.infinity + Single.quietBit
        + BinaryFormat.double.fraction x.magnitude / Single.step % Single.quietBit
    else if x.isInfinite then BinaryFormat.single.infinity
    else
      let (a, b) := BinaryFormat.double.ratio x.magnitude
      BinaryFormat.single.nearest a b
  ⟨UInt32.ofNat (sign + pattern)⟩

end Double

namespace Single

/-- Whether the sign bit is set. -/
def negative (x : Single) : Bool := decide (signBit ≤ x.bits.toNat)

/-- The pattern without its sign. -/
def magnitude (x : Single) : Nat := x.bits.toNat % signBit

/-- The same number in the 64-bit format; every finite single is one exactly. -/
def toDouble (x : Single) : Double :=
  let pattern :=
    if BinaryFormat.single.infinity < x.magnitude then
      BinaryFormat.double.infinity + Double.quietBit
        + BinaryFormat.single.fraction x.magnitude % quietBit * step
    else if x.magnitude = BinaryFormat.single.infinity then BinaryFormat.double.infinity
    else
      let (a, b) := BinaryFormat.single.ratio x.magnitude
      BinaryFormat.double.nearest a b
  Double.ofMagnitude x.negative pattern

end Single

/-- A double rounded to single precision and widened again. -/
def Double.throughSingle (x : Double) : Double := x.toSingle.toDouble

end TableAccess
