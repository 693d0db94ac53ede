import SlotStore.Bytes
import SlotStore.Person

/-!
# Entities in packed form

The packed form writes values one after another without names or kinds: numbers in little-endian
words of eight bytes, texts and sequences after their length.  It can be read only by who knows the
type, so a document can be written but not read.

* `Packed.writeDocument`;
* `Packed.writePerson`, `Packed.readPerson?`.
-/

namespace SlotStore.Packed

/-! ## Writing -/

/-- A word of eight bytes. -/
def writeWord (n : Nat) : Bytes := Bytes.littleEndian 8 n

/-- A whole number, in two's complement if negative. -/
def writeInt (n : Int) : Bytes := writeWord (n % Bytes.span 8).toNat

def writeFloat (x : Binary64) : Bytes := writeWord x.bits.toNat

def writeText (s : String) : Bytes :=
  let bs := Bytes.ofText s
  writeWord bs.length ++ bs

mutual

/-- The packed form of a document; null takes no bytes. -/
def writeDocument : Document → Bytes
  | .null => []
  | .bool b => [if b then 1 else 0]
  | .int n => writeInt n
  | .float x => writeFloat x
  | .text s => writeText s
  | .array items => writeWord items.length ++ writeItems items
  | .object members => writeWord members.length ++ writeMembers members

def writeItems : List Document → Bytes
  | [] => []
  | d :: ds => writeDocument d ++ writeItems ds

def writeMembers : List (String × Document) → Bytes
  | [] => []
  | (name, d) :: ms => writeText name ++ writeDocument d ++ writeMembers ms

end

/-- The packed form of a person. -/
def writePerson (p : Person) : Bytes :=
  writeText p.name ++ writeInt p.age ++
    (match p.score with | some x => 1 :: writeFloat x | none => [0]) ++
    writeWord p.tags.length ++ p.tags.flatMap writeText

/-! ## Reading -/

/-- A word of eight bytes and the rest. -/
def word? (bs : Bytes) : Option (Nat × Bytes) :=
  (Bytes.splitExactly? 8 bs).map fun (w, rest) => (Bytes.ofLittleEndian w, rest)

/-- A whole number of 64 bits. -/
def int? (bs : Bytes) : Option (Int × Bytes) :=
  (word? bs).map fun (n, rest) =>
    (if 2 * n < Bytes.span 8 then (n : Int) else (n : Int) - Bytes.span 8, rest)

def float? (bs : Bytes) : Option (Binary64 × Bytes) :=
  (word? bs).map fun (n, rest) => (⟨.ofNat n⟩, rest)

def text? (bs : Bytes) : Option (String × Bytes) := do
  let (n, rest) ← word? bs
  let (body, rest) ← Bytes.splitExactly? n rest
  let s ← Bytes.text? body
  return (s, rest)

/-- A flag byte, and after a set one a value. -/
def optional? {α : Type} (read : Bytes → Option (α × Bytes)) : Bytes → Option (Option α × Bytes)
  | 0 :: rest => some (none, rest)
  | 1 :: rest => (read rest).map fun (x, rest) => (some x, rest)
  | _ => none

/-- `n` texts in a row. -/
def texts? : Nat → Bytes → Option (List String × Bytes)
  | 0, bs => some ([], bs)
  | n + 1, bs => do
    let (s, rest) ← text? bs
    let (ss, rest) ← texts? n rest
    return (s :: ss, rest)

/-- The person at the front of a run of bytes. -/
def readPerson? (bs : Bytes) : Option Person := do
  let (name, rest) ← text? bs
  let (age, rest) ← int? rest
  let (score, rest) ← optional? float? rest
  let (n, rest) ← word? rest
  let (tags, _) ← texts? n rest
  return { name, age, score, tags }

end SlotStore.Packed
