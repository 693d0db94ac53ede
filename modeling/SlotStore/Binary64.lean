/-!
# Double precision numbers

A float is its 64 bits, and every operation on it is exact integer arithmetic followed by one
rounding.

* `Binary64.units` : the absolute value as a whole number of least subnormals, `2 ^ (-1074)`;
* `Binary64.ofRatio` : the double nearest to a fraction, ties to the even neighbour;
* `Binary64.ofInt`, `Binary64.ofBinary32`, `Binary64.add`, `Binary64.mul`, `Binary64.div` : exact
  values handed to `ofRatio`;
* `Binary64.compare?` : numeric comparison, undefined on NaN;
* `Binary64.totalCompare` : the order of the standard's totalOrder predicate, defined everywhere.

Both comparisons compare one integer key per number, so they inherit their laws from the integers.
-/

namespace SlotStore

/-- A double precision number, by its bits. -/
structure Binary64 where
  /-- Sign, eleven exponent bits, fifty-two fraction bits. -/
  bits : UInt64
deriving DecidableEq, Repr, Inhabited

namespace Binary64

/-! ## Fields -/

/-- The sign bit, alone. -/
def signBit : Nat := 0x8000000000000000

/-- The lowest exponent bit, alone: the bit before the fraction. -/
def leadingBit : Nat := 0x10000000000000

/-- Whether the sign bit is set. -/
def negative (x : Binary64) : Bool :=
  decide (signBit ≤ x.bits.toNat)

/-- All bits but the sign.  On numbers of one sign it grows with the absolute value. -/
def magnitude (x : Binary64) : Nat :=
  x.bits.toNat % signBit

/-- The magnitude of an infinity; larger ones are NaN. -/
def infinityMagnitude : Nat := 0x7FF0000000000000

/-- The number with this sign and magnitude. -/
def ofMagnitude (negative : Bool) (magnitude : Nat) : Binary64 :=
  ⟨UInt64.ofNat ((if negative then signBit else 0) + magnitude)⟩

def zero : Binary64 := ⟨0⟩

/-- A quiet NaN. -/
def nan : Binary64 := ⟨0x7FF8000000000000⟩

def isNaN (x : Binary64) : Bool := decide (infinityMagnitude < x.magnitude)

def isInfinite (x : Binary64) : Bool := decide (x.magnitude = infinityMagnitude)

def isFinite (x : Binary64) : Bool := decide (x.magnitude < infinityMagnitude)

def isZero (x : Binary64) : Bool := decide (x.magnitude = 0)

/-- The biased exponent. -/
def exponentField (x : Binary64) : Nat := x.magnitude / leadingBit

/-- The fraction bits. -/
def fraction (x : Binary64) : Nat := x.magnitude % leadingBit

/-- The fraction with its leading bit, which only subnormals lack. -/
def significand (x : Binary64) : Nat :=
  if x.exponentField = 0 then x.fraction else leadingBit + x.fraction

/-- A finite number is `significand * 2 ^ scale` units. -/
def scale (x : Binary64) : Nat := x.exponentField - 1

/-- The absolute value of a finite number, counted in `2 ^ (-1074)`. -/
def units (x : Binary64) : Nat := x.significand <<< x.scale

/-- The value of a finite number, counted in `2 ^ (-1074)`. -/
def signedUnits (x : Binary64) : Int :=
  if x.negative then -(x.units : Int) else x.units

/-! ## Rounding -/

/-- `a / b` as a whole number, nearest first and a half to the even neighbour. -/
def roundHalfEven (a b : Nat) : Nat :=
  let q := a / b
  let r := a % b
  if 2 * r < b then q
  else if b < 2 * r then q + 1
  else q + q % 2

/-- A power of ten. -/
def tenTo (k : Nat) : Nat := Nat.pow 10 k

/-- The number of binary digits. -/
def bitLength (n : Nat) : Nat :=
  if n = 0 then 0 else n.log2 + 1

/-- The magnitude nearest to `num / den`.  Fifty-three binary digits are kept, fewer below the
normal range; a carry out of them is the next exponent, and past the largest number lies
infinity. -/
def magnitudeOfRatio (num den : Nat) : Nat :=
  let n := num <<< 1074
  let dropped := bitLength (n / den) - 53
  min (dropped * leadingBit + roundHalfEven n (den <<< dropped)) infinityMagnitude

/-- The double nearest to `num / den` with the given sign. -/
def ofRatio (negative : Bool) (num den : Nat) : Binary64 :=
  ofMagnitude negative (magnitudeOfRatio num den)

/-- The double nearest to an integer. -/
def ofInt (n : Int) : Binary64 :=
  ofRatio (decide (n < 0)) n.natAbs 1

/-- The double that equals a single precision number, given by its bits. -/
def ofBinary32 (bits : UInt32) : Binary64 :=
  let negative := decide (0x80000000 ≤ bits.toNat)
  let exponent := bits.toNat / 0x800000 % 0x100
  let fraction := bits.toNat % 0x800000
  if exponent = 255 then
    if fraction = 0 then ofMagnitude negative infinityMagnitude else nan
  else if exponent = 0 then ofRatio negative fraction (1 <<< 149)
  else ofRatio negative ((0x800000 + fraction) <<< exponent) (1 <<< 150)

/-! ## Arithmetic -/

/-- Sum, rounded once.  An exact zero is positive unless both operands are negative. -/
def add (x y : Binary64) : Binary64 :=
  if x.isNaN || y.isNaN then nan
  else if x.isInfinite then
    if y.isInfinite && x.negative != y.negative then nan else x
  else if y.isInfinite then y
  else
    let sum := x.signedUnits + y.signedUnits
    if sum = 0 then ofMagnitude (x.negative && y.negative) 0
    else ofRatio (decide (sum < 0)) sum.natAbs (1 <<< 1074)

/-- Product, rounded once. -/
def mul (x y : Binary64) : Binary64 :=
  let negative := x.negative != y.negative
  if x.isNaN || y.isNaN then nan
  else if x.isInfinite || y.isInfinite then
    if x.isZero || y.isZero then nan else ofMagnitude negative infinityMagnitude
  else ofRatio negative (x.units * y.units) (1 <<< 2148)

/-- Quotient, rounded once. -/
def div (x y : Binary64) : Binary64 :=
  let negative := x.negative != y.negative
  if x.isNaN || y.isNaN then nan
  else if x.isInfinite then
    if y.isInfinite then nan else ofMagnitude negative infinityMagnitude
  else if y.isInfinite then ofMagnitude negative 0
  else if y.isZero then
    if x.isZero then nan else ofMagnitude negative infinityMagnitude
  else ofRatio negative x.units y.units

/-- The number with its sign turned. -/
def neg (x : Binary64) : Binary64 :=
  ofMagnitude (!x.negative) x.magnitude

/-! ## Order -/

/-- Grows with the numeric value; both zeros have key zero. -/
def numericKey (x : Binary64) : Int :=
  if x.negative then -(x.magnitude : Int) else x.magnitude

/-- Grows along the total order: negative NaN, numbers with `-0` below `+0`, positive NaN. -/
def totalKey (x : Binary64) : Int :=
  if x.negative then -(x.magnitude : Int) - 1 else x.magnitude

/-- Numeric comparison; a NaN compares with nothing. -/
def compare? (x y : Binary64) : Option Ordering :=
  if x.isNaN || y.isNaN then none else some (compare x.numericKey y.numericKey)

/-- Comparison in the total order of all bit patterns. -/
def totalCompare (x y : Binary64) : Ordering :=
  compare x.totalKey y.totalKey

/-- The same number with `-0` replaced by `+0`. -/
def positiveZero (x : Binary64) : Binary64 :=
  if x.isZero then ⟨0⟩ else x

end Binary64

end SlotStore
