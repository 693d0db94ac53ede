import SlotStore.Binary64

/-!
# The shortest decimal of a double

Among the decimals that read back as a given double, `Decimal.shortest` takes the one with the
fewest digits, and of those the nearest.  It looks at the grids of one, two, ... seventeen digits in
turn: if a grid has a point that reads back, then one of the two neighbours of the number on that
grid does.  All comparisons are exact, in quarters of a unit.

* `Decimal.shortest` : the digits;
* `Notation` : how a format lays them out, with `Notation.render`.
-/

namespace SlotStore

/-- The number `digits * 10 ^ exponent`. -/
structure Decimal where
  digits : Nat
  exponent : Int
deriving DecidableEq, Repr

/-- Which of two equally near decimals is taken. -/
inductive TieRule
  | up
  | even
deriving DecidableEq, Repr

namespace Decimal

/-- The decimals that round to a double lie between `low` and `high`, in quarter units around
`middle`; the ends belong to it iff the significand is even. -/
structure Reach where
  low : Nat
  middle : Nat
  high : Nat
  closed : Bool

/-- The reach of a finite number.  Below a power of two the spacing halves. -/
def Reach.of (x : Binary64) : Reach :=
  let step := 1 <<< x.scale
  let below := if x.fraction = 0 ∧ 1 < x.exponentField then step else 2 * step
  { low := 4 * x.units - below
    middle := 4 * x.units
    high := 4 * x.units + 2 * step
    closed := x.significand % 2 == 0 }

/-- Quarter units in one. -/
def quarters : Nat := 1 <<< 1076

/-- The point of the grid `10 ^ k` that lies in the reach, nearest to its middle. -/
def gridPoint? (tie : TieRule) (r : Reach) (k : Int) : Option Nat :=
  let up := Binary64.tenTo (-k).toNat
  let unit := quarters * Binary64.tenTo k.toNat
  let inside (c : Nat) : Bool :=
    if r.closed then r.low * up ≤ c * unit && c * unit ≤ r.high * up
    else r.low * up < c * unit && c * unit < r.high * up
  let q := r.middle * up / unit
  let rest := r.middle * up % unit
  match inside q, inside (q + 1) with
  | false, false => none
  | true, false => some q
  | false, true => some (q + 1)
  | true, true =>
    if 2 * rest < unit then some q
    else if unit < 2 * rest then some (q + 1)
    else match tie with
      | .up => some (q + 1)
      | .even => some (q + q % 2)

/-- The least `j` with `1 ≤ n * 10 ^ j / den`, searched for up to `fuel`. -/
def leadingZeros (den : Nat) : (fuel n : Nat) → Nat
  | 0, _ => 0
  | fuel + 1, n => if den ≤ n then 0 else leadingZeros den fuel (n * 10) + 1

/-- The exponent of the leading decimal digit. -/
def leadingExponent (r : Reach) : Int :=
  if quarters ≤ r.middle then ((Nat.toDigits 10 (r.middle / quarters)).length : Int) - 1
  else -(leadingZeros quarters 400 r.middle : Int)

/-- Moves trailing zeros of the digits into the exponent. -/
def trim : (fuel : Nat) → Decimal → Decimal
  | 0, d => d
  | fuel + 1, d =>
    if d.digits ≠ 0 ∧ d.digits % 10 = 0 then trim fuel ⟨d.digits / 10, d.exponent + 1⟩ else d

/-- The first grid with a hit, from the coarsest on. -/
def search (tie : TieRule) (r : Reach) (lead : Int) : (fuel : Nat) → (digits : Nat) → Decimal
  | 0, n => ⟨0, lead - n⟩
  | fuel + 1, n =>
    let k := lead - n
    match gridPoint? tie r k with
    | some c => trim 20 ⟨c, k⟩
    | none => search tie r lead fuel (n + 1)

/-- The shortest decimal that reads back as the absolute value of `x`, a finite number other than
zero. -/
def shortest (tie : TieRule) (x : Binary64) : Decimal :=
  let r := Reach.of x
  search tie r (leadingExponent r) 18 0

end Decimal

/-! ## Layout -/

/-- How a format writes a double. -/
structure FloatFormat where
  /-- Whether a number is written without exponent, by the position of its point: the number of
  digits before the point, negative for zeros after it. -/
  positional : Int → Bool
  /-- What follows the digits of a whole number. -/
  wholeEnd : String
  /-- Which of two equally near decimals is written. -/
  tie : TieRule

namespace FloatFormat

/-- Digits with a point after the first `point` of them, padded with zeros. -/
def place (wholeEnd : String) (digits : List Char) (point : Int) : List Char :=
  if point ≤ 0 then '0' :: '.' :: (List.replicate (-point).toNat '0' ++ digits)
  else if digits.length ≤ point.toNat then
    digits ++ List.replicate (point.toNat - digits.length) '0' ++ wholeEnd.toList
  else digits.take point.toNat ++ '.' :: digits.drop point.toNat

/-- Digits with the point after the first one and a signed exponent. -/
def scientific (digits : List Char) (point : Int) : List Char :=
  let mantissa := match digits with
    | [] => []
    | [d] => [d]
    | d :: ds => d :: '.' :: ds
  let e := point - 1
  mantissa ++ 'e' :: (if e < 0 then '-' else '+') :: Nat.toDigits 10 e.natAbs

/-- The text of a double. -/
def render (f : FloatFormat) (x : Binary64) : String :=
  let sign := if x.negative then ['-'] else []
  if x.isNaN then "NaN"
  else if x.isInfinite then String.ofList (sign ++ ['i', 'n', 'f'])
  else if x.isZero then String.ofList (sign ++ '0' :: f.wholeEnd.toList)
  else
    let d := Decimal.shortest f.tie x
    let digits := Nat.toDigits 10 d.digits
    let point := (digits.length : Int) + d.exponent
    let body := if f.positional point then place f.wholeEnd digits point
      else scientific digits point
    String.ofList (sign ++ body)

/-- Plain notation: never an exponent, and a whole number looks like an integer. -/
def plain : FloatFormat := ⟨fun _ => true, "", .up⟩

/-- Data notation: an exponent from `10 ^ 16` on and below `10 ^ (-5)`, and a whole number keeps a
zero after its point. -/
def data : FloatFormat := ⟨fun point => -5 < point && point ≤ 16, ".0", .even⟩

end FloatFormat

end SlotStore
