import Mathlib.Tactic.Common
import SlotStore.Proofs.Steps
import SlotStore.Proofs.Record.Row
import SlotStore.Record.File

/-!
# What the operations on a record file do

Each operation is described once: the file it leaves, and when it fails.

* `RecordFile.untailed`, `RecordFile.dropTail_eq` : the file without its sealed tail;
* `RecordFile.reserve_eq`, `RecordFile.reserve_eq_error` : appending a slot;
* `RecordFile.writePayload_eq` : writing a payload into a slot;
* `RecordFile.markUnused_eq` : turning a slot into a tombstone;
* `RecordFile.sealWith_eq` : sealing;
* `RecordFile.readBounded_eq`, `RecordFile.of_readBounded`, `RecordFile.readBounded_eq_ok_iff` :
  reading a slot.
-/

namespace SlotStore

/-- The header of a slot of some capacity that holds a payload. -/
def Header.ofPayload (stamp : Stamp) (payload : Bytes) (capacity : Nat) : Header := {
  key := stamp.key
  version := stamp.version
  length := UInt32.ofNat payload.length
  capacity := UInt32.ofNat capacity
  inUse := true
  checksum := SlotStore.checksum payload }

namespace Header

lemma toNat_ofNat_of_lt {n : Nat} (h : n < lengthLimit) : (UInt32.ofNat n).toNat = n :=
  UInt32.toNat_ofNat_of_lt' h

variable {stamp : Stamp} {payload : Bytes} {capacity : Nat}

/-- A slot that has a header has a capacity in bounds. -/
lemma capacity_lt (h : Header) (hsize : h.slotSize = size + capacity) : capacity < lengthLimit := by
  have hword : h.capacity.toNat < lengthLimit := h.capacity.toNat_lt
  rw [slotSize] at hsize
  omega

/-- The header of a payload spans its slot. -/
lemma slotSize_ofPayload (h : capacity < lengthLimit) :
    (ofPayload stamp payload capacity).slotSize = size + capacity := by
  rw [slotSize, ofPayload, toNat_ofNat_of_lt h]

/-- The header of a payload has its length. -/
lemma length_ofPayload (hp : payload.length ≤ capacity) (h : capacity < lengthLimit) :
    (ofPayload stamp payload capacity).length.toNat = payload.length :=
  toNat_ofNat_of_lt (Nat.lt_of_le_of_lt hp h)

/-- The payload fits into its slot. -/
lemma ofPayload_fits (hp : payload.length ≤ capacity) (h : capacity < lengthLimit) :
    (ofPayload stamp payload capacity).length ≤ (ofPayload stamp payload capacity).capacity := by
  rw [UInt32.le_iff_toNat_le, length_ofPayload hp h, ofPayload, toNat_ofNat_of_lt h]
  exact hp

end Header

/-- Exactly the announced payload was gathered. -/
def Writer.Complete (w : Writer) : Prop := w.overflowed = false ∧ w.gathered.length = w.length

instance (w : Writer) : Decidable w.Complete := inferInstanceAs (Decidable (_ ∧ _))

namespace RecordFile

open Steps

variable {f f' : RecordFile}

/-! ## Steps on the content -/

/-- Bytes inside the file can be read. -/
lemma bytesAt_eq_ok {start n : Nat} (hpos : start < positionLimit)
    (hle : start + n ≤ f.content.size) : f.bytesAt start n = .ok (f.content.slice start n) := by
  rw [bytesAt, if_neg (by omega), Content.slice?_eq_some hle]

/-- Bytes that were read lie inside the file. -/
lemma of_bytesAt {start n : Nat} {bs : Bytes} (hbytes : f.bytesAt start n = .ok bs) :
    start < positionLimit ∧ (start + n ≤ f.content.size ∨ n = 0) ∧ f.content.slice start n = bs := by
  rw [bytesAt, Content.slice?] at hbytes
  split at hbytes
  · cases hbytes
  · rename_i hpos
    by_cases hwithin : start + n ≤ f.content.size ∨ n = 0
    · rw [if_pos hwithin] at hbytes
      cases hbytes
      exact ⟨Nat.not_le.mp hpos, hwithin, rfl⟩
    · rw [if_neg hwithin] at hbytes
      cases hbytes

/-- Bytes below the last position can be written. -/
lemma putBytes_eq {start : Nat} {bs : Bytes} (h : start + bs.length < positionLimit) :
    putBytes start bs f = .ok () { f with content := f.content.write start bs } := by
  rw [putBytes, if_neg (Nat.not_le.mpr h)]

/-- Past the last position nothing is written. -/
lemma putBytes_eq_error {start : Nat} {bs : Bytes} (h : positionLimit ≤ start + bs.length) :
    putBytes start bs f = .error (.file .invalidPosition) f := by
  rw [putBytes, if_pos h]

lemma setLength_eq {n : Nat} (h : n < positionLimit) :
    setLength n f = .ok () { f with content := f.content.resize n } :=
  if_neg (Nat.not_le.mpr h)

/-- A file grows up to the last position. -/
lemma growTo_eq {n : Nat} (h : n < positionLimit) :
    growTo n f = .ok () { f with content := f.content.growTo n } := by
  unfold growTo Content.growTo
  split
  · exact setLength_eq h
  · rfl

/-- A file does not grow past the last position. -/
lemma growTo_eq_error {n : Nat} (h : positionLimit ≤ n) (hsize : f.content.size < n) :
    growTo n f = .error (.file .invalidPosition) f := by
  rw [growTo, if_pos hsize]
  exact if_pos h

/-! ## The sealed tail -/

/-- The file without its sealed tail. -/
def untailed (f : RecordFile) : RecordFile :=
  match f.sealedAt with
  | none => f
  | some start => { f with content := f.content.resize start, sealedAt := none }

/-- A file without a tail stays as it is. -/
lemma untailed_of_none (h : f.sealedAt = none) : f.untailed = f := by
  rw [untailed, h]

/-- Of a sealed file only what is in front of the tail stays. -/
lemma untailed_of_some {start : Nat} (h : f.sealedAt = some start) :
    f.untailed = { f with content := f.content.resize start, sealedAt := none } := by
  rw [untailed, h]

@[simp] lemma sealedAt_untailed (f : RecordFile) : f.untailed.sealedAt = none := by
  unfold untailed
  split
  · assumption
  · rfl

/-- **Cutting the tail off** succeeds if the tail begins below the last position. -/
lemma dropTail_eq (h : ∀ start, f.sealedAt = some start → start < positionLimit) :
    dropTail f = .ok () f.untailed := by
  rw [dropTail, get_bind]
  cases hs : f.sealedAt with
  | none => rw [untailed_of_none hs]; rfl
  | some start =>
    rw [untailed_of_some hs]
    dsimp only
    rw [bind_of_ok (setLength_eq (h start hs))]
    rfl

@[simp] lemma cursor_untailed (f : RecordFile) : f.untailed.cursor = f.cursor := by
  unfold untailed
  split <;> rfl

/-- Cutting the tail off takes the tail away, and nothing else. -/
lemma dropTail_eq_ok {x : Unit} (h : dropTail f = .ok x f') : f' = f.untailed := by
  rw [dropTail, get_bind] at h
  cases hs : f.sealedAt with
  | none =>
    rw [hs] at h
    cases h
    rw [untailed_of_none hs]
  | some start =>
    rw [hs] at h
    obtain ⟨_, g, hcut, h⟩ := bind_eq_ok h
    rw [setLength] at hcut
    split at hcut <;> cases hcut
    cases h
    rw [untailed_of_some hs]

/-! ## Appending a slot -/

lemma placeholder_fits (capacity : Nat) :
    (placeholder capacity).length ≤ (placeholder capacity).capacity := by
  rw [UInt32.le_iff_toNat_le]
  exact Nat.zero_le _

/-- A placeholder spans the slot that it reserves. -/
lemma slotSize_placeholder {capacity : Nat} (h : capacity < lengthLimit) :
    (placeholder capacity).slotSize = Header.size + capacity := by
  rw [Header.slotSize, placeholder, Header.toNat_ofNat_of_lt h]

/-- The content of a file after the header of an unused slot was put behind the last slot. -/
def stamped (f : RecordFile) (size : Nat) : Content :=
  f.content.write f.cursor (placeholder (size - Header.size)).encode

section Reserve

variable {size : Nat}

/-- A header is put at the beginning of a slot, and the file reaches to the end of it. -/
lemma stampSlot_eq {start : Nat} {h : Header} (hput : start + Header.size < positionLimit)
    (hpos : start + size < positionLimit) :
    stampSlot start size h f =
      .ok () { f with content := (f.content.write start h.encode).growTo (start + size) } := by
  rw [← h.length_encode] at hput
  rw [stampSlot, bind_of_ok (putBytes_eq hput), growTo_eq hpos]

/-- **Reserving appends a slot** while the file stays below the last position. -/
theorem reserve_eq (hsize : Header.size ≤ size) (hcap : size - Header.size < lengthLimit)
    (hdrop : dropTail f = .ok () f') (hpos : f'.cursor + size < positionLimit) :
    reserve size f = .ok f'.cursor
      { f' with content := (f'.stamped size).growTo (f'.cursor + size),
                cursor := f'.cursor + size } := by
  have hstamp := stampSlot_eq (f := f') (h := placeholder (size - Header.size)) (by omega) hpos
  simp only [reserve, if_neg (Nat.not_lt.mpr hsize), if_neg (Nat.not_le.mpr hcap)]
  rw [bind_of_ok hdrop, get_bind, bind_of_ok hstamp]
  rfl

/-- Reserving past the last position fails, and may leave the header of the slot behind the last
one. -/
theorem reserve_eq_error (hsize : Header.size ≤ size) (hcap : size - Header.size < lengthLimit)
    (hdrop : dropTail f = .ok () f') (hpos : positionLimit ≤ f'.cursor + size)
    (hcontent : f'.content.size < f'.cursor + size) :
    reserve size f = .error (.file .invalidPosition) f' ∨
      (f'.cursor + Header.size < positionLimit ∧ Header.size < size ∧
        reserve size f = .error (.file .invalidPosition)
          { f' with content := f'.stamped size }) := by
  have hlen : (placeholder (size - Header.size)).encode.length = Header.size := by simp
  simp only [reserve, if_neg (Nat.not_lt.mpr hsize), if_neg (Nat.not_le.mpr hcap)]
  rw [bind_of_ok hdrop, get_bind]
  by_cases hput : positionLimit ≤ f'.cursor + Header.size
  · have hfail := putBytes_eq_error (f := f') (hlen.symm ▸ hput)
    exact Or.inl (bind_of_error (bind_of_error hfail))
  · have hput := Nat.not_le.mp hput
    have hok : putBytes f'.cursor (placeholder (size - Header.size)).encode f' =
        .ok () { f' with content := f'.stamped size } := putBytes_eq (hlen.symm ▸ hput)
    have hgrow : growTo (f'.cursor + size) { f' with content := f'.stamped size } =
        .error (.file .invalidPosition) { f' with content := f'.stamped size } := by
      refine growTo_eq_error hpos ?_
      rw [stamped, Content.size_write _ _ _ (by simp [← List.length_pos_iff, Header.size]), hlen]
      omega
    exact Or.inr ⟨hput, by omega, bind_of_error ((bind_of_ok hok).trans hgrow)⟩

/-- A slot whose capacity no header can hold is refused, and the file stays. -/
theorem reserve_tooLarge (hsize : Header.size ≤ size) (hcap : lengthLimit ≤ size - Header.size) :
    reserve size f = .error (.payloadTooLarge (size - Header.size)) f := by
  rw [reserve, if_neg (Nat.not_lt.mpr hsize)]
  dsimp only
  rw [if_pos hcap]
  rfl

end Reserve

/-! ## Writing a payload -/

/-- The file after a payload was put into a slot. -/
def filled (f : RecordFile) (start : Nat) (h : Header) (payload : Bytes) : RecordFile :=
  { f with
    content := (f.content.write start (h.encode ++ payload)).growTo (start + h.slotSize)
    cursor := max f.cursor (start + h.slotSize) }

/-- **Filling a slot** succeeds if it ends below the last position. -/
lemma fillSlot_eq {start : Nat} {h : Header} {payload : Bytes}
    (hput : start + (Header.size + payload.length) < positionLimit)
    (hpos : start + h.slotSize < positionLimit) :
    fillSlot start h payload f = .ok () (f.filled start h payload) := by
  have hput : start + (h.encode ++ payload).length < positionLimit := by
    rw [List.length_append, Header.length_encode]
    exact hput
  rw [fillSlot, bind_of_ok (putBytes_eq hput), bind_of_ok (growTo_eq hpos)]
  rfl

/-- A payload that fits is begun once the tail is cut off. -/
lemma beginWrite_of_fits {start length capacity : Nat} {stamp : Stamp} (hfit : length ≤ capacity)
    (hcap : capacity < lengthLimit) (hstart : start ≤ f.cursor) :
    beginWrite start length capacity stamp f =
      (dropTail >>= fun _ => pure ⟨start, stamp, length, capacity, [], false⟩) f := by
  have hlen : ¬ lengthLimit ≤ length := by omega
  simp only [beginWrite, if_neg hlen, if_neg (Nat.not_le.mpr hcap), if_neg (Nat.not_lt.mpr hfit),
    get_bind]
  rw [if_neg (Nat.not_lt.mpr hstart)]

/-- **A payload is announced** for a slot that it fits into, at the cursor or below. -/
lemma beginWrite_eq {start length capacity : Nat} {stamp : Stamp} (hfit : length ≤ capacity)
    (hcap : capacity < lengthLimit) (hstart : start ≤ f.cursor) (hdrop : dropTail f = .ok () f') :
    beginWrite start length capacity stamp f =
      .ok ⟨start, stamp, length, capacity, [], false⟩ f' := by
  rw [beginWrite_of_fits hfit hcap hstart, bind_of_ok hdrop]
  rfl

/-- A payload that does not fit is refused before the tail is cut off. -/
lemma beginWrite_refused {start length capacity : Nat} (stamp : Stamp)
    (h : ¬ (length ≤ capacity ∧ capacity < lengthLimit ∧ start ≤ f.cursor)) :
    ∃ e, beginWrite start length capacity stamp f = .error e f := by
  by_cases hlen : lengthLimit ≤ length
  · exact ⟨_, by rw [beginWrite, if_pos hlen]; rfl⟩
  · by_cases hcap : lengthLimit ≤ capacity
    · exact ⟨_, by rw [beginWrite, if_neg hlen, if_pos hcap]; rfl⟩
    · by_cases hfit : capacity < length
      · exact ⟨_, by rw [beginWrite, if_neg hlen, if_neg hcap, if_pos hfit]; rfl⟩
      · have hstart : f.cursor < start := by omega
        refine ⟨.range (.writePastEnd start f.cursor), ?_⟩
        simp only [beginWrite, if_neg hlen, if_neg hcap, if_neg hfit, get_bind, if_pos hstart]
        rfl

/-- An announcement is refused before anything is done, or cuts the tail off. -/
lemma beginWrite_cases (start length capacity : Nat) (stamp : Stamp)
    (hdrop : dropTail f = .ok () f') :
    (∃ e, beginWrite start length capacity stamp f = .error e f) ∨
      length ≤ capacity ∧ beginWrite start length capacity stamp f =
        .ok ⟨start, stamp, length, capacity, [], false⟩ f' := by
  by_cases hfits : length ≤ capacity ∧ capacity < lengthLimit ∧ start ≤ f.cursor
  · obtain ⟨hfit, hcap, hstart⟩ := hfits
    exact Or.inr ⟨hfit, beginWrite_eq hfit hcap hstart hdrop⟩
  · exact Or.inl (beginWrite_refused stamp hfits)

/-- What a payload that was begun needs, and what it begins with. -/
lemma beginWrite_eq_ok {start length capacity : Nat} {stamp : Stamp} {w : Writer}
    (hbegin : beginWrite start length capacity stamp f = .ok w f') :
    w = ⟨start, stamp, length, capacity, [], false⟩ ∧ dropTail f = .ok () f' ∧
      length ≤ capacity ∧ capacity < lengthLimit ∧ start ≤ f.cursor := by
  by_cases hfits : length ≤ capacity ∧ capacity < lengthLimit ∧ start ≤ f.cursor
  · obtain ⟨hfit, hcap, hstart⟩ := hfits
    rw [beginWrite_of_fits hfit hcap hstart] at hbegin
    obtain ⟨_, _, hdrop, hpure⟩ := bind_eq_ok hbegin
    cases hpure
    exact ⟨rfl, hdrop, hfit, hcap, hstart⟩
  · obtain ⟨e, hrefused⟩ := beginWrite_refused stamp hfits
    rw [hrefused] at hbegin
    cases hbegin

/-- The header of a payload that is complete. -/
lemma header_of_gathered {w : Writer} (h : w.gathered.length = w.length) :
    w.header = .ofPayload w.stamp w.gathered w.capacity := by
  rw [Writer.header, Header.ofPayload, h]

/-- A complete payload is put into its slot. -/
lemma commit_complete {w : Writer} (h : w.Complete) :
    commit w f = (fillSlot w.start w.header w.gathered >>= fun _ => pure w.header) f := by
  rw [commit, if_neg]
  rintro (ho | hl)
  · exact Bool.false_ne_true (h.1.symm.trans ho)
  · exact hl h.2

/-- A payload that is not complete is refused, and the file stays. -/
lemma commit_incomplete {w : Writer} (h : ¬ w.Complete) :
    commit w f = .error (.range (.payloadIncomplete w.length w.gathered.length)) f := by
  have hlacks : w.overflowed = true ∨ w.gathered.length ≠ w.length := by
    by_contra hnot
    obtain ⟨ho, hl⟩ := not_or.mp hnot
    exact h ⟨Bool.eq_false_iff.mpr ho, not_not.mp hl⟩
  rw [commit, if_pos hlacks]
  rfl

/-- **Writing a payload fills its slot** if the payload fits and the slot ends below the last
position. -/
theorem writePayload_eq {start capacity : Nat} {stamp : Stamp} {payload : Bytes}
    (hfit : payload.length ≤ capacity) (hcap : capacity < lengthLimit) (hstart : start ≤ f.cursor)
    (hdrop : dropTail f = .ok () f') (hpos : start + (Header.size + capacity) < positionLimit) :
    writePayload start stamp payload capacity f =
      .ok (.ofPayload stamp payload capacity)
        (f'.filled start (.ofPayload stamp payload capacity) payload) := by
  have hbegin : beginWrite start payload.length capacity stamp f = _ :=
    beginWrite_eq hfit hcap hstart hdrop
  have hslot : (Header.ofPayload stamp payload capacity).slotSize = Header.size + capacity :=
    Header.slotSize_ofPayload hcap
  have hfill : fillSlot start (.ofPayload stamp payload capacity) payload f' = _ :=
    fillSlot_eq (by omega) (by omega)
  rw [writePayload, bind_of_ok hbegin, Writer.write]
  simp only [Writer.remaining, List.length_nil, Nat.sub_zero, Nat.lt_irrefl, if_false,
    List.nil_append]
  rw [commit, if_neg (by simp)]
  exact (bind_of_ok hfill).trans rfl

/-! ## Tombstones -/

/-- **A header below the cursor is read.** -/
lemma readHeader_eq {start : Nat} {h : Header} (hh : f.content.HeaderAt start h)
    (hcursor : start + Header.size ≤ f.cursor) (hsize : start + Header.size ≤ f.content.size)
    (hpos : start < positionLimit) : f.readHeader start = .ok h := by
  rw [readHeader, checkRange, if_pos hcursor, bytesAt_eq_ok hpos hsize]
  exact Header.decode_eq_ok_iff.mpr hh

/-- **Marking a slot unused** clears the second byte of its header. -/
theorem markUnused_eq {start : Nat} {h : Header} (hh : f.readHeader start = .ok h)
    (hdrop : dropTail f = .ok () f') (hpos : start + 2 < positionLimit) :
    markUnused start f = .ok () { f' with content := f'.content.write (start + 1) [0] } := by
  rw [markUnused, get_bind, hh]
  exact (bind_of_ok hdrop).trans (putBytes_eq (by simp only [List.length_singleton]; omega))

/-! ## Sealing -/

section Seal

variable {stamp : Stamp} {payload : Bytes}

/-- The tail is a header, a payload and a footer. -/
lemma length_tail (start : Nat) (stamp : Stamp) (payload : Bytes) :
    (tail start stamp payload).length = Header.size + payload.length + Footer.size := by
  simp [tail, Nat.add_assoc]

/-- The content of a file with a tail right behind the last slot. -/
def withTail (f : RecordFile) (stamp : Stamp) (payload : Bytes) : Content :=
  (f.content.resize f.cursor).write f.cursor (tail f.cursor stamp payload)

/-- A table that is too large is refused, but the tail before it is gone. -/
lemma sealWith_tooLarge (hlen : lengthLimit ≤ payload.length) (hdrop : dropTail f = .ok () f') :
    sealWith stamp payload f = .error (.payloadTooLarge payload.length) f' := by
  rw [sealWith, bind_of_ok hdrop, get_bind]
  dsimp only
  rw [if_pos hlen]
  rfl

/-- A table is refused if its tail would reach past the last position, and the tail before it is
gone. -/
lemma sealWith_pastEnd (hlen : payload.length < lengthLimit) (hdrop : dropTail f = .ok () f')
    (hcursor : f'.cursor < positionLimit)
    (hpos : positionLimit ≤ f'.cursor + (Header.size + payload.length + Footer.size)) :
    sealWith stamp payload f =
      .error (.file .invalidPosition) { f' with content := f'.content.resize f'.cursor } := by
  rw [← length_tail f'.cursor stamp] at hpos
  rw [sealWith, bind_of_ok hdrop, get_bind]
  dsimp only
  rw [if_neg (Nat.not_le.mpr hlen), bind_of_ok (setLength_eq hcursor)]
  exact bind_of_error (putBytes_eq_error hpos)

/-- **Sealing** puts the tail right behind the last slot. -/
theorem sealWith_eq (hlen : payload.length < lengthLimit) (hdrop : dropTail f = .ok () f')
    (hpos : f'.cursor + (Header.size + payload.length + Footer.size) < positionLimit) :
    sealWith stamp payload f = .ok f'.cursor
      { f' with content := f'.withTail stamp payload, sealedAt := some f'.cursor } := by
  rw [← length_tail f'.cursor stamp] at hpos
  rw [sealWith, bind_of_ok hdrop, get_bind]
  dsimp only
  rw [if_neg (Nat.not_le.mpr hlen), bind_of_ok (setLength_eq (by omega)),
    bind_of_ok (putBytes_eq hpos)]
  rfl

/-- Sealing succeeds only if the tail can be written. -/
theorem sealWith_eq_ok {start : Nat} (h : sealWith stamp payload f = .ok start f') :
    payload.length < lengthLimit ∧
      f.cursor + (Header.size + payload.length + Footer.size) < positionLimit ∧
      dropTail f = .ok () f.untailed := by
  rw [sealWith] at h
  obtain ⟨_, g, hdrop, h⟩ := bind_eq_ok h
  obtain rfl := dropTail_eq_ok hdrop
  rw [get_bind] at h
  dsimp only at h
  split at h
  · cases h
  · rename_i hlen
    obtain ⟨_, g, hcut, h⟩ := bind_eq_ok h
    obtain ⟨_, g', hput, _⟩ := bind_eq_ok h
    rw [putBytes, length_tail, cursor_untailed] at hput
    split at hput
    · cases hput
    · rename_i hpos
      exact ⟨Nat.not_le.mp hlen, Nat.not_le.mp hpos, hdrop⟩

end Seal

/-! ## Reading a slot -/

section Read

variable {o limit : Nat} {h : Header} {payload : Bytes}

/-- The payload that a slot holds. -/
def payloadAt (f : RecordFile) (o : Nat) (h : Header) : Bytes :=
  f.content.slice (o + Header.size) h.length.toNat

/-- Bytes that decode to a header are one. -/
lemma headerAt_of_bytesAt {bs : Bytes} (hbytes : f.bytesAt o Header.size = .ok bs)
    (hdecode : Header.decode o bs = .ok h) : f.content.HeaderAt o h := by
  rw [← (of_bytesAt hbytes).2.2] at hdecode
  exact Header.decode_eq_ok_iff.mp hdecode

lemma le_of_checkRange {start n : Nat} {u : Unit} (h : checkRange start n limit = .ok u) :
    start + n ≤ limit := by
  by_contra hover
  rw [checkRange, if_neg hover] at h
  cases h

/-- **What was read** is a header and the payload it describes, with the right checksum, in a slot
that ends by the limit. -/
lemma of_readBounded (hread : f.readBounded o limit = .ok (h, payload)) :
    f.content.HeaderAt o h ∧ o + h.slotSize ≤ limit ∧ payload = payloadAt f o h ∧
      checksum payload = h.checksum := by
  unfold readBounded at hread
  obtain ⟨_, -, hread⟩ := exists_ok_of_bind hread
  obtain ⟨bs, hbytes, hread⟩ := exists_ok_of_bind hread
  obtain ⟨h', hdecode, hread⟩ := exists_ok_of_bind hread
  obtain ⟨_, hrange, hread⟩ := exists_ok_of_bind hread
  obtain ⟨payload', hpayload, hread⟩ := exists_ok_of_bind hread
  split at hread
  · cases hread
  · rename_i hsum
    cases hread
    exact ⟨headerAt_of_bytesAt hbytes hdecode, le_of_checkRange hrange,
      (of_bytesAt hpayload).2.2.symm, not_not.mp hsum⟩

/-- **Reading a slot** gives its header and payload unless the checksum is wrong. -/
theorem readBounded_eq (hh : f.content.HeaderAt o h) (hstop : o + h.slotSize ≤ limit)
    (hlimit : limit ≤ f.content.size) (hpos : limit < positionLimit) :
    f.readBounded o limit = if checksum (payloadAt f o h) ≠ h.checksum
      then .error (.corruption o .checksumMismatch) else .ok (h, payloadAt f o h) := by
  have hs := h.size_le_slotSize
  have hp := hh.length_le
  have hslot := h.slotSize_pos
  have hhead : f.bytesAt o Header.size = .ok (f.content.slice o Header.size) :=
    bytesAt_eq_ok (by omega) (by omega)
  have hdecode : Header.decode o (f.content.slice o Header.size) = .ok h :=
    Header.decode_eq_ok_iff.mpr hh
  have hpayload : f.bytesAt (o + Header.size) h.length.toNat = .ok (payloadAt f o h) :=
    bytesAt_eq_ok (by omega) (by omega)
  rw [readBounded, checkRange, if_pos (by omega), hhead]
  simp only [bind, Except.bind, hdecode]
  rw [checkRange, if_pos hstop]
  simp only [hpayload]

/-- **A slot is read exactly if** a header stands there, the slot ends by the limit, and the
checksum is right. -/
theorem readBounded_eq_ok_iff (hlimit : limit ≤ f.content.size) (hpos : limit < positionLimit) :
    f.readBounded o limit = .ok (h, payload) ↔
      f.content.HeaderAt o h ∧ o + h.slotSize ≤ limit ∧ payload = payloadAt f o h ∧
        checksum payload = h.checksum := by
  constructor
  · exact of_readBounded
  · rintro ⟨hh, hstop, rfl, hsum⟩
    rw [readBounded_eq hh hstop hlimit hpos]
    exact if_neg (not_not.mpr hsum)

end Read

end RecordFile

end SlotStore
