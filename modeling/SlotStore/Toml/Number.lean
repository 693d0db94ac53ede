import SlotStore.Binary64
import SlotStore.Key
import SlotStore.Toml.Text

/-!
# Numbers and moments of TOML

Whole numbers in four bases, floats, and dates and times.  Underscores may stand between digits.
Once a text has the beginning of a form it has to be that form, or is no value at all: a reader
gives `none` for such a broken text, and `some none` where its form does not begin.

* `moment?` : a date, a time, or both;
* `float?`, `integer?` : numbers.
-/

namespace SlotStore.Toml

/-! ## Digits -/

/-- Digits with single underscores between them. -/
def digits? (isDigit : Char → Bool) : (needed : Bool) → List Char → Option (List Char × List Char)
  | true, c :: cs => if isDigit c then consChar c (digits? isDigit false cs) else none
  | true, [] => none
  | false, '_' :: cs => digits? isDigit true cs
  | false, c :: cs =>
    if isDigit c then consChar c (digits? isDigit false cs) else some ([], c :: cs)
  | false, [] => some ([], [])

/-- The number that digits of a base spell. -/
def numberOf (base : Nat) (ds : List Char) : Nat :=
  ds.foldl (fun n c => base * n + (Key.hexDigit? c).getD 0) 0

/-- A sign, if one stands there: whether it is a minus. -/
def sign : List Char → Bool × List Char
  | '-' :: cs => (true, cs)
  | '+' :: cs => (false, cs)
  | cs => (false, cs)

/-- The digits of a decimal number, with no zero before others. -/
def decimalDigits : List Char → Option (Option (List Char × List Char))
  | '0' :: cs => some (some (['0'], cs))
  | c :: cs => if c.isDigit then (digits? Char.isDigit true (c :: cs)).map some else some none
  | [] => some none

/-! ## Whole numbers -/

/-- Whole numbers are below this, and none is less than its negation. -/
def numberLimit : Nat := 0x8000000000000000

/-- A whole number of 64 bits with a sign. -/
def ranged (n : Int) : Option Int := if -numberLimit ≤ n ∧ n < numberLimit then some n else none

/-- A number in a base given by its first characters. -/
def basedInteger? (base : Nat) (isDigit : Char → Bool) (cs : List Char) :
    Option (Int × List Char) := do
  let (ds, rest) ← digits? isDigit true cs
  return (← ranged (numberOf base ds), rest)

/-- A whole number. -/
def integer? (cs : List Char) : Option (Int × List Char) :=
  match cs with
  | '0' :: 'x' :: cs => basedInteger? 16 (fun c => (Key.hexDigit? c).isSome) cs
  | '0' :: 'o' :: cs => basedInteger? 8 (fun c => '0' ≤ c && c ≤ '7') cs
  | '0' :: 'b' :: cs => basedInteger? 2 (fun c => c = '0' || c = '1') cs
  | cs => do
    let (negative, cs) := sign cs
    let (ds, rest) ← (← decimalDigits cs)
    let n : Int := numberOf 10 ds
    return (← ranged (if negative then -n else n), rest)

/-! ## Floats -/

/-- The double nearest to digits times a power of ten; none for a number above all doubles. -/
def nearest? (negative : Bool) (ds : List Char) (exponent : Int) : Option Binary64 :=
  let n := numberOf 10 ds
  let magnitude := exponent + (Nat.toDigits 10 n).length
  let x :=
    if n = 0 ∨ magnitude < -400 then Binary64.ofMagnitude negative 0
    else if 400 < magnitude then Binary64.ofMagnitude negative Binary64.infinityMagnitude
    else if 0 ≤ exponent then Binary64.ofRatio negative (n * Binary64.tenTo exponent.toNat) 1
    else Binary64.ofRatio negative n (Binary64.tenTo exponent.natAbs)
  if x.isInfinite ∧ ¬ negative then none else some x

/-- The exponent of a float. -/
def exponent : List Char → Option (Option (Int × List Char))
  | c :: cs =>
    if c = 'e' ∨ c = 'E' then do
      let (negative, cs) := sign cs
      let (ds, rest) ← digits? Char.isDigit true cs
      let n : Int := numberOf 10 ds
      some (some (if negative then -n else n, rest))
    else some none
  | [] => some none

/-- What follows the whole part of a float. -/
def floatRest (negative : Bool) (whole : List Char) :
    List Char → Option (Option (Binary64 × List Char))
  | '.' :: cs => do
    let (fraction, rest) ← digits? Char.isDigit true cs
    let (e, rest) := (← exponent rest).getD (0, rest)
    let x ← nearest? negative (whole ++ fraction) (e - fraction.length)
    some (some (x, rest))
  | cs => do
    match ← exponent cs with
    | none => some none
    | some (e, rest) =>
      let x ← nearest? negative whole e
      some (some (x, rest))

/-- Infinity or NaN after the sign. -/
def specialFloat? (negative : Bool) : List Char → Option (Binary64 × List Char)
  | 'i' :: 'n' :: 'f' :: cs => some (.ofMagnitude negative Binary64.infinityMagnitude, cs)
  | 'n' :: 'a' :: 'n' :: cs => some (if negative then Binary64.nan.neg else .nan, cs)
  | _ => none

/-- A float. -/
def float? (cs : List Char) : Option (Option (Binary64 × List Char)) := do
  let (negative, cs) := sign cs
  match ← decimalDigits cs with
  | some (whole, rest) => floatRest negative whole rest
  | none => some (specialFloat? negative cs)

/-! ## Moments -/

/-- A number of `n` digits in a range. -/
def fixed? (n low high : Nat) (cs : List Char) : Option (Nat × List Char) :=
  let ds := cs.take n
  let value := numberOf 10 ds
  if ds.length = n ∧ ds.all Char.isDigit ∧ low ≤ value ∧ value ≤ high then
    some (value, cs.drop n)
  else none

/-- What is left after a character that has to stand there. -/
def expect? (c : Char) : List Char → Option (List Char)
  | d :: cs => if d = c then some cs else none
  | [] => none

/-- The days of a month. -/
def daysOf (year month : Nat) : Nat :=
  if month = 2 then
    if year % 4 = 0 ∧ (year % 100 ≠ 0 ∨ year % 400 = 0) then 29 else 28
  else if [4, 6, 9, 11].contains month then 30
  else 31

/-- What is left after a date. -/
def date (cs : List Char) : Option (Option (Unit × List Char)) :=
  match (fixed? 4 0 9999 cs).bind fun (year, rest) => (expect? '-' rest).map (year, ·) with
  | none => some none
  | some (year, rest) => do
    let (month, rest) ← fixed? 2 1 12 rest
    let rest ← expect? '-' rest
    let (_, rest) ← fixed? 2 1 (daysOf year month) rest
    some (some ((), rest))

/-- What is left after an hour and a colon, if they stand there. -/
def hour? (cs : List Char) : Option (List Char) :=
  (fixed? 2 0 23 cs).bind fun (_, rest) => expect? ':' rest

/-- What is left after a fraction of a second, if one stands there. -/
def skipFraction : List Char → List Char
  | '.' :: c :: cs => if c.isDigit then cs.dropWhile Char.isDigit else '.' :: c :: cs
  | cs => cs

/-- What is left after a time of day. -/
def time (cs : List Char) : Option (Option (Unit × List Char)) :=
  match hour? cs with
  | none => some none
  | some rest => do
    let (_, rest) ← fixed? 2 0 59 rest
    let rest ← expect? ':' rest
    let (_, rest) ← fixed? 2 0 60 rest
    some (some ((), skipFraction rest))

/-- What is left after the distance from universal time, if one stands there. -/
def zone? : List Char → Option (List Char)
  | 'Z' :: cs => some cs
  | 'z' :: cs => some cs
  | c :: cs =>
    if c = '+' ∨ c = '-' then do
      let rest ← hour? cs
      let (_, rest) ← fixed? 2 0 59 rest
      return rest
    else some (c :: cs)
  | [] => some []

/-- What is left after a time that follows a date, if one stands there. -/
def timeAfterDate? : List Char → Option (List Char)
  | c :: cs =>
    if c = 'T' ∨ c = 't' ∨ c = ' ' then
      match time cs with
      | none => none
      | some none => some (c :: cs)
      | some (some ((), rest)) => zone? rest
    else some (c :: cs)
  | [] => some []

/-- What is left after a moment: a date, a time of day, or both with or without a distance from
universal time. -/
def moment? (cs : List Char) : Option (Option (Unit × List Char)) := do
  match ← date cs with
  | some ((), rest) => (timeAfterDate? rest).map fun rest => some ((), rest)
  | none => time cs

end SlotStore.Toml
