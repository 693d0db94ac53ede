import SlotStore.Bytes

/-!
# The content of a file

A file is a length and a byte at every position below it.  Positions past the end hold zero, which
is what a file is filled with when it grows.

* `Content.slice?` : bytes of a range inside the file;
* `Content.write` : bytes written at a position, which may lie past the end;
* `Content.resize` : the file cut or grown to a length;
* `Content.flat` : the same content, quicker to read.

Each operation has a law that gives every byte of its result.
-/

namespace SlotStore

/-- The content of a file. -/
structure Content where
  size : Nat
  byte : Nat → UInt8
  byte_eq_zero : ∀ i, size ≤ i → byte i = 0

namespace Content

theorem ext {c d : Content} (hs : c.size = d.size) (hb : ∀ i, c.byte i = d.byte i) : c = d := by
  cases c
  cases d
  obtain rfl : _ = _ := hs
  obtain rfl : _ = _ := funext hb
  rfl

/-- The empty file. -/
def empty : Content := ⟨0, fun _ => 0, fun _ _ => rfl⟩

instance : Inhabited Content := ⟨empty⟩

/-- A file with given bytes. -/
def ofBytes (bs : Bytes) : Content :=
  let items := bs.toArray
  { size := items.size
    byte := fun i => items.getD i 0
    byte_eq_zero := fun i h => by simp [Array.getD, Nat.not_lt.mpr h] }

/-- The `n` bytes from a position on, with zeros past the end. -/
def slice (c : Content) (start n : Nat) : Bytes :=
  (List.range n).map fun i => c.byte (start + i)

/-- The `n` bytes from a position on, if they lie inside the file. -/
def slice? (c : Content) (start n : Nat) : Option Bytes :=
  if start + n ≤ c.size ∨ n = 0 then some (c.slice start n) else none

/-- All bytes of the file. -/
def toBytes (c : Content) : Bytes := c.slice 0 c.size

/-- The file with bytes written at a position.  A gap before them is filled with zeros; writing
nothing changes nothing. -/
def write (c : Content) (start : Nat) (bs : Bytes) : Content :=
  if bs = [] then c
  else
    let items := bs.toArray
    { size := max c.size (start + items.size)
      byte := fun i =>
        if start ≤ i ∧ i < start + items.size then items.getD (i - start) 0 else c.byte i
      byte_eq_zero := fun i h => by
        have hc : c.size ≤ i := Nat.le_trans (Nat.le_max_left _ _) h
        have hn : start + items.size ≤ i := Nat.le_trans (Nat.le_max_right _ _) h
        simp [Nat.not_lt.mpr hn, c.byte_eq_zero i hc] }

/-- The file cut or grown to a length. -/
def resize (c : Content) (n : Nat) : Content :=
  if h : c.size ≤ n then ⟨n, c.byte, fun i hi => c.byte_eq_zero i (Nat.le_trans h hi)⟩
  else
    { size := n
      byte := fun i => if i < n then c.byte i else 0
      byte_eq_zero := fun i hi => by simp [Nat.not_lt.mpr hi] }

/-- The file grown to a length if it is shorter. -/
def growTo (c : Content) (n : Nat) : Content :=
  if c.size < n then c.resize n else c

/-- How many bytes at the beginning of a file are worth gathering. -/
def flatLimit : Nat := 0x10000

/-- The same content with the bytes at its beginning gathered in one array, so that reading one of
them does not go through all the writes since. -/
def flat (c : Content) : Content :=
  if c.size ≤ flatLimit then ofBytes c.toBytes
  else
    let items := (c.slice 0 flatLimit).toArray
    { size := c.size
      byte := fun i => if h : i < items.size then items[i] else c.byte i
      byte_eq_zero := fun i h => by
        split
        · simp [items, slice, c.byte_eq_zero i h]
        · exact c.byte_eq_zero i h }

/-! ## Laws -/

@[simp] theorem length_slice (c : Content) (start n : Nat) : (c.slice start n).length = n := by
  simp [slice]

@[simp] theorem size_resize (c : Content) (n : Nat) : (c.resize n).size = n := by
  unfold resize
  split <;> rfl

theorem byte_resize (c : Content) (n i : Nat) :
    (c.resize n).byte i = if i < n then c.byte i else 0 := by
  unfold resize
  split
  · rename_i h
    split
    · rfl
    · rename_i hi
      exact c.byte_eq_zero i (by omega)
  · rfl

theorem byte_write (c : Content) (start : Nat) (bs : Bytes) (i : Nat) :
    (c.write start bs).byte i =
      if start ≤ i ∧ i < start + bs.length then bs.getD (i - start) 0 else c.byte i := by
  unfold write
  split
  · rename_i h
    subst h
    simp only [List.length_nil, Nat.add_zero]
    split
    · omega
    · rfl
  · simp [Array.getD, List.getD_eq_getElem?_getD]
    split
    · rename_i h
      have : i - start < bs.length := by omega
      simp [this]
    · rfl

theorem size_write (c : Content) (start : Nat) (bs : Bytes) (h : bs ≠ []) :
    (c.write start bs).size = max c.size (start + bs.length) := by
  simp [write, h]

@[simp] theorem ofBytes_toBytes (c : Content) : ofBytes c.toBytes = c := by
  refine ext (by simp [ofBytes, toBytes]) fun i => ?_
  rcases Nat.lt_or_ge i c.size with h | h
  · simp [ofBytes, toBytes, Array.getD, slice, h]
  · simp [ofBytes, toBytes, Array.getD, slice, Nat.not_lt.mpr h, c.byte_eq_zero i h]

@[simp] theorem flat_eq (c : Content) : c.flat = c := by
  unfold flat
  split
  · exact c.ofBytes_toBytes
  · refine ext rfl fun i => ?_
    simp [slice]

end Content

end SlotStore
