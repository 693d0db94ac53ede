import SlotStore.Error

/-!
# Reading a payload forward

A reader stands at a position of one payload and only moves forward.

* `Reader.read`, `Reader.readExact` : the next bytes;
* `Reader.seek`, `Reader.skip` : moving without reading.
-/

namespace SlotStore

/-- A payload and how much of it was read.  The position never passes the end. -/
structure Reader where
  payload : Bytes
  position : Nat
  position_le : position ≤ payload.length

namespace Reader

/-- A reader at the beginning. -/
def ofPayload (payload : Bytes) : Reader := ⟨payload, 0, Nat.zero_le _⟩

/-- What was not read yet. -/
def remaining (r : Reader) : Bytes := r.payload.drop r.position

/-- The next `n` bytes, or all that are left if these are fewer. -/
def read (n : Nat) (r : Reader) : Bytes × Reader :=
  let taken := min n (r.payload.length - r.position)
  (r.remaining.take n, ⟨r.payload, r.position + taken, by have := r.position_le; omega⟩)

/-- The next `n` bytes; fails at the end if fewer are left. -/
def readExact (n : Nat) (r : Reader) : Except Error Bytes × Reader :=
  let (bs, r') := r.read n
  (if bs.length = n then .ok bs else .error (.file .unexpectedEnd), r')

/-- Moves to a position at or after the current one. -/
def seek (target : Nat) (r : Reader) : Except Error Unit × Reader :=
  if target < r.position then (.error (.range (.backwardSeek r.position target)), r)
  else if h : target ≤ r.payload.length then (.ok (), ⟨r.payload, target, h⟩)
  else (.error (.range (.seekPastEnd target r.payload.length)), r)

/-- The largest number of a machine word. -/
def maxWord : Nat := 0xFFFFFFFFFFFFFFFF

/-- Moves `n` bytes on; the target stops at the largest word. -/
def skip (n : Nat) (r : Reader) : Except Error Unit × Reader :=
  r.seek (min (r.position + n) maxWord)

end Reader

end SlotStore
