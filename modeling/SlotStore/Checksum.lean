import SlotStore.Bytes

/-!
# Payload checksums

A slot header carries the CRC-32 of its payload: the reflected polynomial `0xEDB88320`, all ones
at the start and inverted at the end.  `checksum` is a left fold of one step per byte.
-/

namespace SlotStore

namespace Checksum

/-- One bit of the division. -/
def stepBit (state : UInt32) : UInt32 :=
  if state &&& 1 = 1 then (state >>> 1) ^^^ 0xEDB88320 else state >>> 1

/-- One byte of the division: the byte is mixed in and eight bits are divided out. -/
def stepByte (state : UInt32) (b : UInt8) : UInt32 :=
  stepBit (stepBit (stepBit (stepBit
    (stepBit (stepBit (stepBit (stepBit (state ^^^ b.toUInt32))))))))

end Checksum

/-- The CRC-32 of a run of bytes. -/
def checksum (bs : Bytes) : UInt32 :=
  ~~~ (bs.foldl Checksum.stepByte 0xFFFFFFFF)

end SlotStore
