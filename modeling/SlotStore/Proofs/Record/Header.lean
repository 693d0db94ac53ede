import Mathlib.Tactic.Common
import SlotStore.Record.Header

/-!
# Headers and footers read back

A header whose length fits its capacity is read back from its bytes, whatever the offset it is read
at, and so is a footer whose position fits a word of eight bytes.  The bytes of a header are not
looked at in two places; everywhere else they are determined by what is read from them.

* `Header.Spells` : the fields that thirty-six bytes spell, one by one;
* `Header.decode_eq_ok_iff` : decoding gives a header exactly if the bytes spell it;
* `Header.decode_encode`, `Footer.decode?_encode` : the two round trips;
* `Header.Spells.clearFlag` : clearing the flag byte turns a header into its tombstone;
* `Header.Spells.encode_eq`, `Header.decode_eq_ok_iff_encode` : a header that was decoded has the
  bytes it was decoded from;
* `Header.decode_bijective` : which bytes are those of a header.
-/

namespace SlotStore

namespace Header

/-! ## Words -/

@[simp] lemma length_word (n : UInt32) : (word n).length = 4 := by
  simp [word]

/-- A word is read as it was written. -/
lemma ofNat_ofLittleEndian_word (n : UInt32) :
    UInt32.ofNat (Bytes.ofLittleEndian (word n)) = n := by
  have hn : n.toNat < Bytes.span 4 := n.toNat_lt
  rw [word, Bytes.ofLittleEndian_littleEndian hn, UInt32.ofNat_toNat]

/-- A word inside a run of bytes is found by the bytes before it. -/
lemma wordAt_eq {bs : Bytes} {n : UInt32} {i : Nat} (front back : Bytes)
    (hbs : bs = front ++ (word n ++ back)) (hi : front.length = i) : wordAt bs i = n := by
  rw [hbs, ← hi, wordAt, List.drop_left, List.take_append_of_le_length (by simp),
    List.take_of_length_le (by simp), ofNat_ofLittleEndian_word]

/-! ## Fields -/

/-- What thirty-six bytes say when they are taken for a header. -/
structure Spells (bs : Bytes) (h : Header) : Prop where
  length_eq : bs.length = size
  first : bs.getD 0 0 = marker
  flags : bs.getD 1 0 &&& 0xFE = 0
  fits : h.length ≤ h.capacity
  key : h.key.bytes = (bs.drop 4).take 16
  version : h.version = wordAt bs 20
  length : h.length = wordAt bs 24
  capacity : h.capacity = wordAt bs 28
  inUse : h.inUse = (bs.getD 1 0 == 1)
  checksum : h.checksum = wordAt bs 32

/-- **Decoding succeeds exactly on the bytes that spell a header**, and the offset is only named in
errors. -/
theorem decode_eq_ok_iff {offset : Nat} {bs : Bytes} {h : Header} :
    decode offset bs = .ok h ↔ Spells bs h := by
  unfold decode
  constructor
  · intro hd
    split at hd
    · rename_i hlen
      simp only [ne_eq] at hd
      split at hd
      · cases hd
      · rename_i hfirst
        split at hd
        · cases hd
        · rename_i hflags
          split at hd
          · cases hd
          · rename_i hfit
            cases hd
            exact ⟨hlen, not_not.mp hfirst, not_not.mp hflags, UInt32.not_lt.mp hfit, rfl, rfl, rfl,
              rfl, rfl, rfl⟩
    · cases hd
  · intro hs
    have hfit : ¬ h.capacity < h.length := UInt32.not_lt.mpr hs.fits
    rw [dif_pos hs.length_eq]
    simp only [hs.first, hs.flags, ne_eq, not_true_eq_false, if_false, Key.ofPrefix, ← hs.key,
      ← hs.version, ← hs.length, ← hs.capacity, ← hs.inUse, ← hs.checksum, if_neg hfit]

/-- Thirty-six bytes that are no header are corrupt at their offset. -/
lemma exists_corruption {offset : Nat} {bs : Bytes} {e : Error} (hlen : bs.length = size)
    (hd : decode offset bs = .error e) : ∃ what, e = .corruption offset what := by
  rw [decode, dif_pos hlen] at hd
  dsimp only at hd
  split at hd
  · cases hd
    exact ⟨_, rfl⟩
  · split at hd
    · cases hd
      exact ⟨_, rfl⟩
    · split at hd <;> cases hd
      exact ⟨_, rfl⟩

/-- The bytes of a header before its words. -/
def lead (h : Header) : Bytes := [marker, if h.inUse then 1 else 0, 0, 0] ++ h.key.bytes

@[simp] lemma length_lead (h : Header) : h.lead.length = 20 := by
  simp [lead, h.key.length_bytes]

/-- **The parts of a header**: what leads, and four words. -/
lemma encode_eq (h : Header) :
    h.encode = h.lead ++
      (word h.version ++ (word h.length ++ (word h.capacity ++ word h.checksum))) := by
  simp [encode, lead]

/-- An encoded header spells itself, if its payload fits. -/
lemma spells_encode {h : Header} (hle : h.length ≤ h.capacity) : Spells h.encode h where
  length_eq := h.length_encode
  first := by simp [encode]
  flags := by
    have hflag : h.encode.getD 1 0 = if h.inUse then 1 else 0 := by simp [encode]
    rw [hflag]
    cases h.inUse <;> decide
  fits := hle
  key := by simp [encode, h.key.length_bytes]
  version := (wordAt_eq h.lead _ h.encode_eq (by simp)).symm
  length := (wordAt_eq (h.lead ++ word h.version) (word h.capacity ++ word h.checksum)
    (by simp [encode_eq]) (by simp)).symm
  capacity := (wordAt_eq (h.lead ++ word h.version ++ word h.length) (word h.checksum)
    (by simp [encode_eq]) (by simp)).symm
  inUse := by
    have hflag : h.encode.getD 1 0 = if h.inUse then 1 else 0 := by simp [encode]
    rw [hflag]
    cases h.inUse <;> decide
  checksum := (wordAt_eq (h.lead ++ word h.version ++ word h.length ++ word h.capacity) []
    (by simp [encode_eq]) (by simp)).symm

/-- **A header is read back**, at any offset, if its length fits its capacity. -/
theorem decode_encode (offset : Nat) {h : Header} (hle : h.length ≤ h.capacity) :
    decode offset h.encode = .ok h :=
  decode_eq_ok_iff.mpr (spells_encode hle)

/-! ## Tombstones -/

/-- The header of a slot after it was given up. -/
def tombstone (h : Header) : Header := { h with inUse := false }

/-- A tombstone spans the slot of its record. -/
@[simp] lemma slotSize_tombstone (h : Header) : h.tombstone.slotSize = h.slotSize := rfl

/-- **Clearing the flag byte** turns the bytes of a header into those of its tombstone. -/
theorem Spells.clearFlag {bs : Bytes} {h : Header} (hs : Spells bs h) :
    Spells (bs.set 1 0) h.tombstone := by
  have hlen : 1 < bs.length := by
    rw [hs.length_eq]
    decide
  have hflag : (bs.set 1 0).getD 1 0 = 0 := by simp [List.getD_eq_getElem?_getD, hlen]
  have hdrop : ∀ n, 1 < n → (bs.set 1 0).drop n = bs.drop n := by
    intro n hn
    rw [List.drop_set_of_lt hn]
  have hword : ∀ n, 1 < n → wordAt (bs.set 1 0) n = wordAt bs n := by
    intro n hn
    rw [wordAt, wordAt, hdrop n hn]
  exact {
    length_eq := by rw [List.length_set, hs.length_eq]
    first := by rw [← hs.first]; simp [List.getD_eq_getElem?_getD]
    flags := by rw [hflag]; decide
    fits := hs.fits
    key := by rw [hdrop 4 (by decide)]; exact hs.key
    version := by rw [hword 20 (by decide)]; exact hs.version
    length := by rw [hword 24 (by decide)]; exact hs.length
    capacity := by rw [hword 28 (by decide)]; exact hs.capacity
    inUse := by rw [hflag]; rfl
    checksum := by rw [hword 32 (by decide)]; exact hs.checksum }

/-! ## Bytes and headers -/

/-- The bytes with the two that are not looked at set to zero. -/
def clearUnread (bs : Bytes) : Bytes := (bs.set 2 0).set 3 0

@[simp] lemma length_clearUnread (bs : Bytes) : (clearUnread bs).length = bs.length := by
  simp [clearUnread]

lemma drop_clearUnread (bs : Bytes) {n : Nat} (hn : 3 < n) :
    (clearUnread bs).drop n = bs.drop n := by
  rw [clearUnread, List.drop_set_of_lt hn, List.drop_set_of_lt (by omega)]

/-- Clearing the unread bytes leaves the marker and the flags. -/
lemma getD_clearUnread (bs : Bytes) {n : Nat} (hn : n < 2) :
    (clearUnread bs).getD n 0 = bs.getD n 0 := by
  simp only [clearUnread, List.getD_eq_getElem?_getD]
  rw [List.getElem?_set_ne (by omega), List.getElem?_set_ne (by omega)]

/-- **The two bytes are not looked at.** -/
theorem decode_clearUnread (offset : Nat) (bs : Bytes) :
    decode offset (clearUnread bs) = decode offset bs := by
  have hword : ∀ n, 3 < n → wordAt (clearUnread bs) n = wordAt bs n := by
    intro n hn
    rw [wordAt, wordAt, drop_clearUnread bs hn]
  simp only [decode, length_clearUnread, getD_clearUnread bs (show 0 < 2 by decide),
    getD_clearUnread bs (show 1 < 2 by decide), drop_clearUnread bs (show 3 < 4 by decide),
    hword 20 (by decide), hword 24 (by decide), hword 28 (by decide), hword 32 (by decide)]

/-- Four bytes are the bytes of the word that they spell. -/
lemma word_wordAt {bs : Bytes} {n : Nat} (hn : n + 4 ≤ bs.length) :
    word (wordAt bs n) = (bs.drop n).take 4 := by
  have hlen : ((bs.drop n).take 4).length = 4 := by simp; omega
  have hlt := Bytes.ofLittleEndian_lt ((bs.drop n).take 4)
  have hback := Bytes.littleEndian_ofLittleEndian ((bs.drop n).take 4)
  rw [hlen] at hlt hback
  rw [word, wordAt, UInt32.toNat_ofNat_of_lt' hlt, hback]

/-- A byte without a flag but the lowest one. -/
lemma lone_flag_iff (b : UInt8) : b &&& 0xFE = 0 ↔ b.toNat < 2 := by
  have hbits : ∀ n < 256, n &&& 254 = 0 ↔ n < 2 := by decide +kernel
  rw [← UInt8.toNat_inj]
  exact hbits b.toNat b.toNat_lt

/-- The lowest flag is the whole byte, if no other flag is set. -/
lemma flag_of_lone {b : UInt8} (h : b &&& 0xFE = 0) : (if b == 1 then 1 else 0) = b := by
  have hb := (lone_flag_iff b).mp h
  rcases (show b.toNat = 0 ∨ b.toNat = 1 by omega) with hn | hn
  · obtain rfl : b = 0 := UInt8.toNat_inj.mp hn
    rfl
  · obtain rfl : b = 1 := UInt8.toNat_inj.mp hn
    rfl

/-- **The bytes of a header that was decoded** are those it was decoded from, but for the two that
are not looked at. -/
theorem Spells.encode_eq {bs : Bytes} {h : Header} (hs : Spells bs h) :
    h.encode = clearUnread bs := by
  have hlen := hs.length_eq
  have hcut : ∀ n m k, n + m = k → bs.drop n = (bs.drop n).take m ++ bs.drop k := by
    intro n m k hk
    rw [← hk, ← List.drop_drop, List.take_append_drop]
  have hend : bs.drop 36 = [] := List.drop_of_length_le (Nat.le_of_eq hlen)
  have hword : ∀ n, n + 4 ≤ 36 → word (wordAt bs n) = (bs.drop n).take 4 := by
    intro n hn
    exact word_wordAt (by rw [hlen]; exact hn)
  have hfields : bs.drop 4 = h.key.bytes ++
      (word h.version ++ (word h.length ++ (word h.capacity ++ word h.checksum))) := by
    rw [hs.key, hs.version, hs.length, hs.capacity, hs.checksum, hword 20 (by decide),
      hword 24 (by decide), hword 28 (by decide), hword 32 (by decide)]
    conv_lhs => rw [hcut 4 16 20 rfl, hcut 20 4 24 rfl, hcut 24 4 28 rfl, hcut 28 4 32 rfl,
      hcut 32 4 36 rfl, hend, List.append_nil]
  have hflag : (if h.inUse then 1 else 0) = bs.getD 1 0 := by
    rw [hs.inUse]
    exact flag_of_lone hs.flags
  rw [Header.encode_eq, lead, hflag, List.append_assoc, ← hfields, ← hs.first]
  -- The first four bytes stand one by one, so that setting two of them is seen.
  rcases bs with _ | ⟨b₀, _ | ⟨b₁, _ | ⟨b₂, _ | ⟨b₃, rest⟩⟩⟩⟩
  · simp [size] at hlen
  · simp [size] at hlen
  · simp [size] at hlen
  · simp [size] at hlen
  · rfl

/-- **Decoding undoes encoding and the other way round.**  A header is decoded from its own bytes
exactly if its length fits its capacity, and from no others but for the two that are not looked
at. -/
theorem decode_eq_ok_iff_encode {offset : Nat} {bs : Bytes} {h : Header} :
    decode offset bs = .ok h ↔ h.length ≤ h.capacity ∧ h.encode = clearUnread bs := by
  constructor
  · intro hd
    have hs := decode_eq_ok_iff.mp hd
    exact ⟨hs.fits, hs.encode_eq⟩
  · rintro ⟨hfit, hbytes⟩
    rw [← decode_clearUnread, ← hbytes]
    exact decode_encode offset hfit

lemma lone_flag_iff_testBit (b : UInt8) :
    b &&& 0xFE = 0 ↔ ∀ i, 0 < i → b.toNat.testBit i = false := by
  rw [lone_flag_iff]
  constructor
  · intro hb i hi
    exact Nat.testBit_lt_two_pow
      (Nat.lt_of_lt_of_le hb (Nat.pow_le_pow_right (n := 2) (by decide) hi))
  · intro hb
    exact Nat.lt_pow_two_of_testBit (n := 1) _ fun i hi => hb i hi

/-- The number that four bytes of a run spell. -/
def numberAt (bs : Bytes) (i : Nat) : Nat := Bytes.ofLittleEndian ((bs.drop i).take 4)

lemma wordAt_le_iff (bs : Bytes) (i j : Nat) :
    wordAt bs i ≤ wordAt bs j ↔ numberAt bs i ≤ numberAt bs j := by
  have hword : ∀ n, (wordAt bs n).toNat = numberAt bs n := by
    intro n
    have hspan : ∀ k ≤ 4, Bytes.span k ≤ Bytes.span 4 := by decide
    have hshort : ((bs.drop n).take 4).length ≤ 4 := List.length_take_le _ _
    have hlt := Bytes.ofLittleEndian_lt ((bs.drop n).take 4)
    exact UInt32.toNat_ofNat_of_lt' (Nat.lt_of_lt_of_le hlt (hspan _ hshort))
  rw [UInt32.le_iff_toNat_le, hword, hword]

/-- **Bytes that pass the checks** decode to a header. -/
lemma exists_decode {offset : Nat} {bs : Bytes} (hlen : bs.length = size)
    (hfirst : bs.getD 0 0 = marker) (hflags : bs.getD 1 0 &&& 0xFE = 0)
    (hfit : wordAt bs 24 ≤ wordAt bs 28) : ∃ h, decode offset bs = .ok h := by
  rw [decode, dif_pos hlen]
  simp only [hfirst, hflags, ne_eq, not_true_eq_false, if_false,
    if_neg (UInt32.not_lt.mpr hfit)]
  exact ⟨_, rfl⟩

/-- **The format of headers is a bijection** between headers whose length fits their capacity and
runs of thirty-six bytes, but for the two bytes that are not looked at.  Every header is decoded
from its bytes, at any offset.  A run is decoded exactly if it begins with the marker, sets no flag
but the lowest, and spells a length within the capacity; the header then has its bytes.  All others
are corrupt at the offset. -/
theorem decode_bijective (offset : Nat) :
    (∀ h : Header, h.length ≤ h.capacity → decode offset h.encode = .ok h) ∧
      ∀ bs : Bytes, bs.length = 36 →
        ((∃ h, decode offset bs = .ok h) ↔
          bs.getD 0 0 = 0xA7 ∧ (∀ i, 0 < i → (bs.getD 1 0).toNat.testBit i = false) ∧
            numberAt bs 24 ≤ numberAt bs 28) ∧
        (∀ h, decode offset bs = .ok h → h.encode = (bs.set 2 0).set 3 0) ∧
        ∀ e, decode offset bs = .error e → ∃ what, e = .corruption offset what := by
  refine ⟨fun h hfit => decode_encode offset hfit, fun bs hlen => ⟨?_, ?_, ?_⟩⟩
  · rw [← lone_flag_iff_testBit, ← wordAt_le_iff]
    constructor
    · rintro ⟨h, hd⟩
      have hs := decode_eq_ok_iff.mp hd
      exact ⟨hs.first, hs.flags, hs.length ▸ hs.capacity ▸ hs.fits⟩
    · rintro ⟨hfirst, hflags, hfit⟩
      exact exists_decode hlen hfirst hflags hfit
  · intro h hd
    exact (decode_eq_ok_iff_encode.mp hd).2
  · intro e hd
    exact exists_corruption hlen hd

/-- The bytes of an unused slot, with the two bytes set that are not looked at. -/
def padded : Bytes :=
  [0xA7, 0, 5, 6] ++ List.replicate 16 0x11 ++ [7, 0, 0, 0, 1, 0, 0, 0, 2, 0, 0, 0, 9, 9, 9, 9]

/-- Bytes that are decoded, and written again without the two that are not looked at. -/
theorem decode_bijective_padded : padded.length = 36 ∧
    ∃ h, decode 108 padded = .ok h ∧ h.encode = (padded.set 2 0).set 3 0 := by
  have hlen : padded.length = 36 := by decide
  have hflags : ∀ i, 0 < i → (padded.getD 1 0).toNat.testBit i = false :=
    fun i _ => Nat.zero_testBit i
  obtain ⟨hdecoded, hencode, -⟩ := (decode_bijective 108).2 padded hlen
  obtain ⟨h, hd⟩ := hdecoded.mpr ⟨by decide, hflags, by decide⟩
  exact ⟨hlen, h, hd, hencode h hd⟩

end Header

/-- A key that is not reserved. -/
def Key.sample : Key := ⟨List.replicate 16 0x11, by decide⟩

/-- A key whose bytes are all the same. -/
def Key.filled (b : UInt8) : Key := ⟨List.replicate 16 b, List.length_replicate⟩

namespace Footer

/-- **A footer is read back** if its position fits a word of eight bytes. -/
theorem decode?_encode {f : Footer} (hf : f.tocOffset < Bytes.span 8) :
    decode? f.encode = some f := by
  have hmark : f.encode.take 4 = mark := by simp [encode, mark]
  have hdrop : f.encode.drop 8 = Bytes.littleEndian 8 f.tocOffset := by simp [encode, mark]
  rw [decode?, if_pos ⟨f.length_encode, hmark⟩, hdrop, Bytes.ofLittleEndian_littleEndian hf]

end Footer

end SlotStore
