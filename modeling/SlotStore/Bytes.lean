/-!
# Runs of bytes

Everything in a record file is a run of bytes, and every number in it is a word of fixed width.

* `Bytes.littleEndian`, `Bytes.ofLittleEndian` : a word with its least significant byte first;
* `Bytes.bigEndian`, `Bytes.ofBigEndian` : the same with its most significant byte first;
* `Bytes.span` : how many numbers a word of some width holds;
* `Bytes.splitExactly?` : the first `n` bytes and the rest, if there are `n`;
* `Bytes.ofText`, `Bytes.text?` : the UTF-8 form of a text.

The two directions of a word are inverse to each other: `ofLittleEndian_littleEndian` and
`littleEndian_ofLittleEndian`.
-/

namespace SlotStore

/-- A run of bytes. -/
abbrev Bytes := List UInt8

namespace Bytes

/-! ## Words -/

/-- How many numbers a word of `width` bytes holds. -/
def span : (width : Nat) → Nat
  | 0 => 1
  | width + 1 => 256 * span width

/-- The `width` low bytes of `n`, least significant first. -/
def littleEndian : (width n : Nat) → Bytes
  | 0, _ => []
  | width + 1, n => UInt8.ofNat n :: littleEndian width (n / 256)

/-- The number that a little-endian run of bytes writes. -/
def ofLittleEndian : Bytes → Nat
  | [] => 0
  | b :: bs => b.toNat + 256 * ofLittleEndian bs

/-- The `width` low bytes of `n`, most significant first. -/
def bigEndian (width n : Nat) : Bytes :=
  (littleEndian width n).reverse

/-- The number that a big-endian run of bytes writes. -/
def ofBigEndian (bs : Bytes) : Nat :=
  ofLittleEndian bs.reverse

@[simp] theorem length_littleEndian : ∀ width n : Nat, (littleEndian width n).length = width
  | 0, _ => rfl
  | width + 1, n => by simp [littleEndian, length_littleEndian width (n / 256)]

@[simp] theorem length_bigEndian (width n : Nat) : (bigEndian width n).length = width := by
  simp [bigEndian]

theorem ofLittleEndian_lt : ∀ bs : Bytes, ofLittleEndian bs < span bs.length
  | [] => by simp [ofLittleEndian, span]
  | b :: bs => by
    have hb : b.toNat < 256 := b.toNat_lt
    have ih := ofLittleEndian_lt bs
    simp only [ofLittleEndian, List.length_cons, span]
    omega

/-- A number that fits its word is read back. -/
theorem ofLittleEndian_littleEndian :
    ∀ {width n : Nat}, n < span width → ofLittleEndian (littleEndian width n) = n
  | 0, n, h => by
    have : n = 0 := by simpa [span] using h
    simp [littleEndian, ofLittleEndian, this]
  | width + 1, n, h => by
    have hq : n / 256 < span width := by
      rw [span] at h
      omega
    simp only [littleEndian, ofLittleEndian, ofLittleEndian_littleEndian hq, UInt8.toNat_ofNat']
    omega

/-- A word is the only run of its length that writes its number. -/
theorem littleEndian_ofLittleEndian :
    ∀ bs : Bytes, littleEndian bs.length (ofLittleEndian bs) = bs
  | [] => rfl
  | b :: bs => by
    have hb : b.toNat < 256 := b.toNat_lt
    have hq : (b.toNat + 256 * ofLittleEndian bs) / 256 = ofLittleEndian bs := by omega
    have hr : UInt8.ofNat (b.toNat + 256 * ofLittleEndian bs) = b := by
      apply UInt8.toNat_inj.mp
      rw [UInt8.toNat_ofNat']
      omega
    simp only [List.length_cons, ofLittleEndian, littleEndian, hq, hr,
      littleEndian_ofLittleEndian bs]

theorem ofBigEndian_bigEndian {width n : Nat} (h : n < span width) :
    ofBigEndian (bigEndian width n) = n := by
  simp [ofBigEndian, bigEndian, ofLittleEndian_littleEndian h]

/-! ## Cutting -/

/-- The first `n` bytes and what follows them; nothing if there are fewer. -/
def splitExactly? (n : Nat) (bs : Bytes) : Option (Bytes × Bytes) :=
  let head := bs.take n
  if head.length = n then some (head, bs.drop n) else none

theorem splitExactly?_append (xs ys : Bytes) :
    splitExactly? xs.length (xs ++ ys) = some (xs, ys) := by
  simp [splitExactly?]

/-! ## Text -/

/-- The UTF-8 form of a text. -/
def ofText (s : String) : Bytes :=
  s.toByteArray.data.toList

/-- The text whose UTF-8 form this is, if there is one. -/
def text? (bs : Bytes) : Option String :=
  String.fromUTF8? ⟨bs.toArray⟩

end Bytes

end SlotStore
