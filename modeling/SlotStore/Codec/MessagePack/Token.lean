import SlotStore.Bytes
import SlotStore.Binary64

/-!
# MessagePack tokens

A MessagePack text is a sequence of tokens.  A token is a scalar with its data, or announces the
number of items of an array or map that follow it.

* `Token.unsigned`, `Token.signed`, ... : the tokens that are written, each in its shortest form;
* `Token.read?` : the first token of a run of bytes, in any form.
-/

namespace SlotStore.MessagePack

/-- The first token of an encoded value. -/
inductive Token
  | nil
  | bool (b : Bool)
  /-- A number in a form without sign. -/
  | unsigned (n : Nat)
  /-- A number in a form with sign, whatever its value. -/
  | signed (n : Int)
  | float (x : Binary64)
  /-- The bytes of a text, which need not be valid. -/
  | text (bs : Bytes)
  | binary (bs : Bytes)
  | array (count : Nat)
  | map (count : Nat)
  | extension (kind : UInt8) (bs : Bytes)
deriving DecidableEq, Repr

/-! ## Writing -/

/-- A marker byte followed by a big-endian word. -/
def marked (marker : UInt8) (width n : Nat) : Bytes :=
  marker :: Bytes.bigEndian width n

/-- A whole number from zero on. -/
def writeUnsigned (n : Nat) : Bytes :=
  if n < 128 then [UInt8.ofNat n]
  else if n < Bytes.span 1 then marked 0xCC 1 n
  else if n < Bytes.span 2 then marked 0xCD 2 n
  else if n < Bytes.span 4 then marked 0xCE 4 n
  else marked 0xCF 8 n

/-- The word of `width` bytes that stands for an integer in two's complement. -/
def twosComplement (width : Nat) (n : Int) : Nat :=
  (n % Bytes.span width).toNat

/-- A whole number; a negative one in a form with sign. -/
def writeSigned (n : Int) : Bytes :=
  if 0 ≤ n then writeUnsigned n.toNat
  else if -32 ≤ n then [UInt8.ofNat (twosComplement 1 n)]
  else if -0x80 ≤ n then marked 0xD0 1 (twosComplement 1 n)
  else if -0x8000 ≤ n then marked 0xD1 2 (twosComplement 2 n)
  else if -0x80000000 ≤ n then marked 0xD2 4 (twosComplement 4 n)
  else marked 0xD3 8 (twosComplement 8 n)

def writeNil : Bytes := [0xC0]

def writeBool (b : Bool) : Bytes := [if b then 0xC3 else 0xC2]

def writeFloat (x : Binary64) : Bytes := marked 0xCB 8 x.bits.toNat

/-- A text: its length, then its UTF-8 form. -/
def writeText (s : String) : Bytes :=
  let bs := Bytes.ofText s
  let n := bs.length
  let head :=
    if n < 32 then [UInt8.ofNat (0xA0 + n)]
    else if n < Bytes.span 1 then marked 0xD9 1 n
    else if n < Bytes.span 2 then marked 0xDA 2 n
    else marked 0xDB 4 n
  head ++ bs

/-- Raw bytes: their number, then the bytes. -/
def writeBinary (bs : Bytes) : Bytes :=
  let n := bs.length
  let head :=
    if n < Bytes.span 1 then marked 0xC4 1 n
    else if n < Bytes.span 2 then marked 0xC5 2 n
    else marked 0xC6 4 n
  head ++ bs

/-- The head of an array with `n` items. -/
def writeArray (n : Nat) : Bytes :=
  if n < 16 then [UInt8.ofNat (0x90 + n)]
  else if n < Bytes.span 2 then marked 0xDC 2 n
  else marked 0xDD 4 n

/-- The head of a map with `n` members. -/
def writeMap (n : Nat) : Bytes :=
  if n < 16 then [UInt8.ofNat (0x80 + n)]
  else if n < Bytes.span 2 then marked 0xDE 2 n
  else marked 0xDF 4 n

/-! ## Reading -/

/-- A big-endian word of `width` bytes and the rest. -/
def word? (width : Nat) (bs : Bytes) : Option (Nat × Bytes) :=
  (Bytes.splitExactly? width bs).map fun (w, rest) => (Bytes.ofBigEndian w, rest)

/-- The integer that a word of `width` bytes stands for in two's complement. -/
def ofTwosComplement (width n : Nat) : Int :=
  if 2 * n < Bytes.span width then n else (n : Int) - Bytes.span width

/-- A length of `width` bytes and as many bytes. -/
def sized? (width : Nat) (bs : Bytes) : Option (Bytes × Bytes) :=
  (word? width bs).bind fun (n, rest) => Bytes.splitExactly? n rest

/-- An extension with `n` bytes of data after its kind. -/
def extension? (n : Nat) : Bytes → Option (Token × Bytes)
  | [] => none
  | kind :: rest =>
    (Bytes.splitExactly? n rest).map fun (bs, rest) => (.extension kind bs, rest)

/-- The token after a marker byte. -/
def afterMarker? (marker : Nat) (bs : Bytes) : Option (Token × Bytes) :=
  let number (width : Nat) := (word? width bs).map fun (n, rest) => (Token.unsigned n, rest)
  let integer (width : Nat) := (word? width bs).map fun (n, rest) =>
    (Token.signed (ofTwosComplement width n), rest)
  let text (width : Nat) := (sized? width bs).map fun (s, rest) => (Token.text s, rest)
  let binary (width : Nat) := (sized? width bs).map fun (s, rest) => (Token.binary s, rest)
  let extension (width : Nat) := (word? width bs).bind fun (n, rest) => extension? n rest
  if marker < 0x80 then some (.unsigned marker, bs)
  else if marker < 0x90 then some (.map (marker - 0x80), bs)
  else if marker < 0xA0 then some (.array (marker - 0x90), bs)
  else if marker < 0xC0 then
    (Bytes.splitExactly? (marker - 0xA0) bs).map fun (s, rest) => (.text s, rest)
  else if 0xE0 ≤ marker then some (.signed ((marker : Int) - 256), bs)
  else match marker with
    | 0xC0 => some (.nil, bs)
    | 0xC2 => some (.bool false, bs)
    | 0xC3 => some (.bool true, bs)
    | 0xC4 => binary 1
    | 0xC5 => binary 2
    | 0xC6 => binary 4
    | 0xC7 => extension 1
    | 0xC8 => extension 2
    | 0xC9 => extension 4
    | 0xCA => (word? 4 bs).map fun (n, rest) => (.float (.ofBinary32 (.ofNat n)), rest)
    | 0xCB => (word? 8 bs).map fun (n, rest) => (.float ⟨.ofNat n⟩, rest)
    | 0xCC => number 1
    | 0xCD => number 2
    | 0xCE => number 4
    | 0xCF => number 8
    | 0xD0 => integer 1
    | 0xD1 => integer 2
    | 0xD2 => integer 4
    | 0xD3 => integer 8
    | 0xD4 => extension? 1 bs
    | 0xD5 => extension? 2 bs
    | 0xD6 => extension? 4 bs
    | 0xD7 => extension? 8 bs
    | 0xD8 => extension? 16 bs
    | 0xD9 => text 1
    | 0xDA => text 2
    | 0xDB => text 4
    | 0xDC => (word? 2 bs).map fun (n, rest) => (.array n, rest)
    | 0xDD => (word? 4 bs).map fun (n, rest) => (.array n, rest)
    | 0xDE => (word? 2 bs).map fun (n, rest) => (.map n, rest)
    | 0xDF => (word? 4 bs).map fun (n, rest) => (.map n, rest)
    | _ => none

/-- The first token and the rest. -/
def token? : Bytes → Option (Token × Bytes)
  | [] => none
  | marker :: bs => afterMarker? marker.toNat bs

end SlotStore.MessagePack
