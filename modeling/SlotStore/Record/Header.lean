import SlotStore.Error

/-!
# Slot headers

A record file is a row of slots.  A slot is a header of thirty-six bytes and its capacity in payload
bytes.  The header is laid out as

```text
0      marker 0xA7
1      flags, bit 0 set while the slot is in use
2-3    zero, not looked at
4-19   key
20-23  version
24-27  payload length
28-31  capacity
32-35  checksum of the payload
```

with little-endian words.

* `Header.encode`, `Header.decode` : the bytes of a header and back.
-/

namespace SlotStore

/-- What a slot is written with: the key of its entity and the version of the write. -/
structure Stamp where
  key : Key
  version : UInt32
deriving DecidableEq, Repr, Inhabited

/-- The header of a slot. -/
structure Header where
  key : Key
  version : UInt32
  length : UInt32
  capacity : UInt32
  inUse : Bool
  checksum : UInt32
deriving DecidableEq, Repr, Inhabited

namespace Header

/-- Bytes in a header. -/
def size : Nat := 36

/-- The first byte of every header. -/
def marker : UInt8 := 0xA7

/-- Bytes in a slot: the header and the capacity. -/
def slotSize (h : Header) : Nat := size + h.capacity.toNat

/-- Four bytes of a word. -/
def word (n : UInt32) : Bytes := Bytes.littleEndian 4 n.toNat

/-- The bytes of a header. -/
def encode (h : Header) : Bytes :=
  [marker, if h.inUse then 1 else 0, 0, 0] ++ h.key.bytes ++
    word h.version ++ word h.length ++ word h.capacity ++ word h.checksum

/-- The word at a position. -/
def wordAt (bs : Bytes) (i : Nat) : UInt32 :=
  UInt32.ofNat (Bytes.ofLittleEndian ((bs.drop i).take 4))

/-- The header that thirty-six bytes at some offset of a file spell. -/
def decode (offset : Nat) (bs : Bytes) : Except Error Header :=
  if h : bs.length = size then
    let corrupt (what : Corruption) : Except Error Header := .error (.corruption offset what)
    let first := bs.getD 0 0
    let flags := bs.getD 1 0
    let length := wordAt bs 24
    let capacity := wordAt bs 28
    if first ≠ marker then corrupt (.badMarker first)
    else if flags &&& 0xFE ≠ 0 then corrupt (.unknownFlags flags)
    else if capacity < length then
      corrupt (.lengthExceedsCapacity length.toNat capacity.toNat)
    else
      .ok {
        key := Key.ofPrefix (bs.drop 4) (by simp [h, size])
        version := wordAt bs 20
        length
        capacity
        inUse := flags == 1
        checksum := wordAt bs 32 }
  else .error (.file .unexpectedEnd)

@[simp] theorem length_encode (h : Header) : h.encode.length = size := by
  simp [encode, word, h.key.length_bytes, size]

end Header

/-! ## Footers -/

/-- The sixteen bytes at the end of a sealed file: a mark, four unused bytes, and where the table of
contents begins. -/
structure Footer where
  tocOffset : Nat
deriving DecidableEq, Repr

namespace Footer

/-- Bytes in a footer. -/
def size : Nat := 16

/-- The letters `RKTC`. -/
def mark : Bytes := [0x52, 0x4B, 0x54, 0x43]

/-- The bytes of a footer. -/
def encode (f : Footer) : Bytes :=
  mark ++ List.replicate 4 0 ++ Bytes.littleEndian 8 f.tocOffset

/-- The footer that sixteen bytes spell, if they begin with the mark. -/
def decode? (bs : Bytes) : Option Footer :=
  if bs.length = size ∧ bs.take 4 = mark then some ⟨Bytes.ofLittleEndian (bs.drop 8)⟩ else none

@[simp] theorem length_encode (f : Footer) : f.encode.length = size := by
  simp [encode, mark, size]

end Footer

end SlotStore
