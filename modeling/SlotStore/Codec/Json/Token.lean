import SlotStore.Bytes
import SlotStore.Binary64.Decimal

/-!
# JSON scalars

Texts and numbers as JSON writes and reads them, on bytes.

* `Json.writeText`, `Json.text?` : quoted texts; only quotes, backslashes and controls are escaped
  on writing, and a pair of surrogate escapes is one character on reading;
* `Json.writeInt`, `Json.writeFloat`, `Json.number?` : numbers;
* `Json.passText?`, `Json.passNumber?` : the same passed over without looking at their value.

A number with a fraction or an exponent is the double that comes from multiplying or dividing its
digits by a power of ten, each step rounded; this is not always the double nearest to the decimal.
-/

namespace SlotStore.Json

/-! ## Bytes -/

/-- The byte of an ASCII character. -/
def byte (c : Char) : UInt8 := UInt8.ofNat c.toNat

/-- The bytes of an ASCII text. -/
def ascii (s : String) : Bytes := s.toList.map byte

def isSpace (b : UInt8) : Bool :=
  b == 0x20 || b == 0x09 || b == 0x0A || b == 0x0D

def isDigit (b : UInt8) : Bool := 0x30 ≤ b && b ≤ 0x39

/-- What follows the blanks at the front. -/
def skipSpace (bs : Bytes) : Bytes := bs.dropWhile isSpace

/-- What follows a given word. -/
def afterWord? : (word bs : Bytes) → Option Bytes
  | [], bs => some bs
  | _ :: _, [] => none
  | w :: ws, b :: bs => if w = b then afterWord? ws bs else none

/-! ## Texts -/

/-- The written form of one byte inside quotes. -/
def escapeByte (b : UInt8) : Bytes :=
  if b = 0x22 then [0x5C, 0x22]
  else if b = 0x5C then [0x5C, 0x5C]
  else if b = 0x08 then [0x5C, 0x62]
  else if b = 0x09 then [0x5C, 0x74]
  else if b = 0x0A then [0x5C, 0x6E]
  else if b = 0x0C then [0x5C, 0x66]
  else if b = 0x0D then [0x5C, 0x72]
  else if b < 0x20 then
    [0x5C, 0x75, 0x30, 0x30,
      byte (Nat.digitChar (b.toNat / 16)), byte (Nat.digitChar (b.toNat % 16))]
  else [b]

/-- A quoted text. -/
def writeText (s : String) : Bytes :=
  0x22 :: ((Bytes.ofText s).flatMap escapeByte ++ [0x22])

/-- The value of a hexadecimal digit of either case. -/
def hexDigit? (b : UInt8) : Option Nat :=
  if 0x30 ≤ b ∧ b ≤ 0x39 then some (b.toNat - 0x30)
  else if 0x61 ≤ b ∧ b ≤ 0x66 then some (b.toNat - 0x61 + 10)
  else if 0x41 ≤ b ∧ b ≤ 0x46 then some (b.toNat - 0x41 + 10)
  else none

/-- The number of four hexadecimal digits. -/
def hex4? (a b c d : UInt8) : Option Nat := do
  return ((← hexDigit? a) * 16 + (← hexDigit? b)) * 256 + ((← hexDigit? c) * 16 + (← hexDigit? d))

/-- The byte that a single letter escapes. -/
def letterEscape? (b : UInt8) : Option UInt8 :=
  if b = 0x22 ∨ b = 0x5C ∨ b = 0x2F then some b
  else if b = 0x62 then some 0x08
  else if b = 0x66 then some 0x0C
  else if b = 0x6E then some 0x0A
  else if b = 0x72 then some 0x0D
  else if b = 0x74 then some 0x09
  else none

/-- The UTF-8 form of a code point. -/
def codePoint (n : Nat) : Bytes := Bytes.ofText (String.singleton (Char.ofNat n))

def isLeading (n : Nat) : Bool := 0xD800 ≤ n && n < 0xDC00

def isTrailing (n : Nat) : Bool := 0xDC00 ≤ n && n < 0xE000

/-- The bytes of a text after its opening quote, gathered in reverse, and what follows the closing
quote. -/
def textBody? (gathered : Bytes) : Bytes → Option (Bytes × Bytes)
  | [] => none
  | 0x22 :: rest => some (gathered.reverse, rest)
  | 0x5C :: 0x75 :: a :: b :: c :: d :: rest =>
    match hex4? a b c d with
    | none => none
    | some n =>
      if isTrailing n then none
      else if isLeading n then
        match rest with
        | 0x5C :: 0x75 :: a' :: b' :: c' :: d' :: rest' =>
          match hex4? a' b' c' d' with
          | none => none
          | some m =>
            if isTrailing m then
              let point := 0x10000 + (n - 0xD800) * 0x400 + (m - 0xDC00)
              textBody? ((codePoint point).reverse ++ gathered) rest'
            else none
        | _ => none
      else textBody? ((codePoint n).reverse ++ gathered) rest
  | 0x5C :: e :: rest =>
    match letterEscape? e with
    | none => none
    | some b => textBody? (b :: gathered) rest
  | b :: rest => if b < 0x20 ∨ b = 0x5C then none else textBody? (b :: gathered) rest

/-- A quoted text at the front. -/
def text? : Bytes → Option (String × Bytes)
  | 0x22 :: bs => do
    let (body, rest) ← textBody? [] bs
    let s ← Bytes.text? body
    return (s, rest)
  | _ => none

/-- What follows the closing quote of a text that is passed over.  Its escapes need not pair up, and
its bytes need not be UTF-8. -/
def passBody? : Bytes → Option Bytes
  | [] => none
  | 0x22 :: rest => some rest
  | 0x5C :: 0x75 :: a :: b :: c :: d :: rest =>
    if (hex4? a b c d).isSome then passBody? rest else none
  | 0x5C :: e :: rest => if (letterEscape? e).isSome then passBody? rest else none
  | b :: rest => if b < 0x20 ∨ b = 0x5C then none else passBody? rest

/-- What follows a quoted text. -/
def passText? : Bytes → Option Bytes
  | 0x22 :: bs => passBody? bs
  | _ => none

/-! ## Numbers -/

/-- An integer in decimal. -/
def writeInt (n : Int) : Bytes :=
  if n < 0 then 0x2D :: (Nat.toDigits 10 n.natAbs).map byte
  else (Nat.toDigits 10 n.natAbs).map byte

/-- A double in data notation, or null where it is not finite. -/
def writeFloat (x : Binary64) : Bytes :=
  if x.isFinite then ascii (FloatFormat.data.render x) else ascii "null"

/-- A number as it is written. -/
inductive Number
  | natural (n : Nat)
  | negative (n : Int)
  | float (x : Binary64)

/-- The number of a digit. -/
def digit (b : UInt8) : Nat := b.toNat - 0x30

/-- A digit is still taken while the number stays in a word of eight bytes. -/
def fits (significand : Nat) (d : UInt8) : Bool := significand * 10 + digit d < Bytes.span 8

/-- The digits at the front that can be taken into the significand: the significand, how many were
taken, and the rest. -/
def takeDigits : (significand taken : Nat) → Bytes → Nat × Nat × Bytes
  | n, k, [] => (n, k, [])
  | n, k, b :: bs =>
    if isDigit b && fits n b then takeDigits (n * 10 + digit b) (k + 1) bs else (n, k, b :: bs)

/-- How many digits stand at the front, and the rest. -/
def passDigits (bs : Bytes) : Nat × Bytes :=
  ((bs.takeWhile isDigit).length, bs.dropWhile isDigit)

/-- The number of decimal digits, gathered without bound. -/
def decimalOf (ds : Bytes) : Nat := ds.foldl (fun n d => n * 10 + digit d) 0

/-- The double nearest to a power of ten. -/
def powerOfTen (k : Nat) : Binary64 := .ofRatio false (Binary64.tenTo k) 1

/-- A double divided by `10 ^ k`, in steps of at most `10 ^ 308`; zero stays zero. -/
def divideByTens : (fuel : Nat) → Binary64 → Nat → Binary64
  | 0, x, _ => x
  | fuel + 1, x, k =>
    if k ≤ 308 then x.div (powerOfTen k)
    else if x.isZero then x
    else divideByTens fuel (x.div (powerOfTen 308)) (k - 308)

/-- The double of a significand and a power of ten; nothing if it overflows. -/
def scaled? (negative : Bool) (significand : Nat) (exponent : Int) : Option Binary64 := do
  let x := Binary64.ofInt significand
  let y ←
    if exponent < 0 then some (divideByTens 4 x exponent.natAbs)
    else if exponent ≤ 308 then
      let y := x.mul (powerOfTen exponent.toNat)
      if y.isInfinite then none else some y
    else if x.isZero then some x
    else none
  return if negative then y.neg else y

/-- The largest exponent that is read digit by digit. -/
def exponentLimit : Nat := 0x7FFFFFFF

/-- An exponent after its letter, then the double. -/
def exponent? (negative : Bool) (significand : Nat) (start : Int) (bs : Bytes) :
    Option (Binary64 × Bytes) :=
  let (downward, bs) := match bs with
    | 0x2B :: rest => (false, rest)
    | 0x2D :: rest => (true, rest)
    | bs => (false, bs)
  let digits := bs.takeWhile isDigit
  let rest := bs.dropWhile isDigit
  if digits = [] then none
  else
    let e := decimalOf digits
    if exponentLimit < e then
      if significand ≠ 0 ∧ !downward then none
      else some (Binary64.ofMagnitude negative 0, rest)
    else
      (scaled? negative significand (if downward then start - e else start + e)).map (·, rest)

/-- What may follow the digits of a number that is a double: an exponent or nothing. -/
def exponentOrEnd? (negative : Bool) (significand : Nat) (start : Int) :
    Bytes → Option (Binary64 × Bytes)
  | 0x65 :: rest | 0x45 :: rest => exponent? negative significand start rest
  | bs => (scaled? negative significand start).map (·, bs)

/-- Digits after the point, then the double.  Digits past the capacity of the significand are
dropped. -/
def fraction? (negative : Bool) (significand : Nat) (start : Int) (bs : Bytes) :
    Option (Binary64 × Bytes) :=
  let (n, taken, rest) := takeDigits significand 0 bs
  let (more, rest) := passDigits rest
  if taken = 0 ∧ more = 0 then none
  else exponentOrEnd? negative n (start - taken) rest

/-- A number after its sign. -/
def magnitude? (negative : Bool) : Bytes → Option (Number × Bytes)
  | [] => none
  | b :: bs =>
    if !isDigit b then none
    else
      let leadingZero := b = 0x30
      let (n, _, rest) := if leadingZero then (0, 0, bs) else takeDigits (digit b) 0 bs
      let (more, rest) := if leadingZero then (0, rest) else passDigits rest
      match rest with
      | 0x2E :: rest => (fraction? negative n more rest).map fun (x, rest) => (.float x, rest)
      | 0x65 :: rest | 0x45 :: rest =>
        (exponent? negative n more rest).map fun (x, rest) => (.float x, rest)
      | rest =>
        if leadingZero ∧ (rest.head?.map isDigit) = some true then none
        else if more ≠ 0 then
          (scaled? negative n more).map fun x => (.float x, rest)
        else if !negative then some (.natural n, rest)
        else if n = 0 ∨ 0x8000000000000000 < n then
          some (.float (Binary64.ofInt n).neg, rest)
        else some (.negative (-(n : Int)), rest)

/-- A number at the front. -/
def number? : Bytes → Option (Number × Bytes)
  | 0x2D :: bs => magnitude? true bs
  | bs => magnitude? false bs

/-- What follows an exponent after its letter. -/
def passExponent? (bs : Bytes) : Option Bytes :=
  let bs := match bs with
    | 0x2B :: rest | 0x2D :: rest => rest
    | bs => bs
  let (digits, rest) := passDigits bs
  if digits = 0 then none else some rest

/-- What follows a number after its sign, whatever its size. -/
def passMagnitude? (bs : Bytes) : Option Bytes :=
  let (digits, rest) := passDigits bs
  if digits = 0 ∨ (bs.head? = some 0x30 ∧ digits ≠ 1) then none
  else
    match rest with
    | 0x2E :: rest =>
      let (decimals, rest) := passDigits rest
      if decimals = 0 then none
      else
        match rest with
        | 0x65 :: rest | 0x45 :: rest => passExponent? rest
        | rest => some rest
    | 0x65 :: rest | 0x45 :: rest => passExponent? rest
    | rest => some rest

/-- What follows a number. -/
def passNumber? : Bytes → Option Bytes
  | 0x2D :: bs => passMagnitude? bs
  | bs => passMagnitude? bs

end SlotStore.Json
