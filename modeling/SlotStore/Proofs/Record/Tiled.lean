import Mathlib.Tactic.Common
import SlotStore.Proofs.Record.File

/-!
# Files that are tiled by slots

A file is *tiled* by a row if the slots of the row fill its data region and nothing lies past them
but a sealed tail, or the header of a slot that could not be appended.  Every operation takes a
tiled file to a tiled one, and changes what is read from at most one slot.

* `RecordFile.Tiled` : the invariant of record files;
* `RecordFile.Keeps` : the same slots, read as before;
* `RecordFile.Sets` : one slot is rewritten or appended, and the others are read as before;
* `Tiled.reserve`, `Tiled.writePayload`, `Tiled.append`, `Tiled.markUnused`, `Tiled.sealWith` : what
  each operation does to a tiled file.
-/

namespace SlotStore.RecordFile

variable {f f' f'' : RecordFile} {row row' : Row} {o : Nat} {h : Header}

/-- What lies past the last slot. -/
inductive Rest (f : RecordFile) : Prop
  | clean (unsealed : f.sealedAt = none) (size : f.content.size = f.cursor)
  /-- A slot was reserved past the last position, and only its header was written. -/
  | torn (h : Header) (unsealed : f.sealedAt = none)
      (size : f.content.size = f.cursor + Header.size) (head : f.content.HeaderAt f.cursor h)
      (large : Header.size < h.slotSize)
  | tail (start : f.sealedAt = some f.cursor) (le : f.cursor ≤ f.content.size)

/-- **The slots of a row tile a file**: they fill it up to the cursor. -/
structure Tiled (f : RecordFile) (row : Row) : Prop where
  fills : Row.Fills f.content 0 row f.cursor
  rest : Rest f
  below : f.content.size < positionLimit

namespace Rest

lemma cursor_le (hr : Rest f) : f.cursor ≤ f.content.size := by
  cases hr with
  | clean _ size => omega
  | torn _ _ size => omega
  | tail _ le => exact le

lemma eq_cursor (hr : Rest f) {start : Nat} (hs : f.sealedAt = some start) : start = f.cursor := by
  cases hr with
  | clean unsealed => rw [unsealed] at hs; cases hs
  | torn _ unsealed => rw [unsealed] at hs; cases hs
  | tail hstart => exact (Option.some.inj (hstart.symm.trans hs)).symm

lemma sealedAt_lt (hr : Rest f) (hbelow : f.cursor < positionLimit) :
    ∀ start, f.sealedAt = some start → start < positionLimit :=
  fun _ hs => hr.eq_cursor hs ▸ hbelow

/-- Without a tail at most a header lies past the last slot. -/
lemma size_le (hr : Rest f) (hu : f.sealedAt = none) :
    f.content.size ≤ f.cursor + Header.size := by
  cases hr with
  | clean _ size => omega
  | torn _ _ size => omega
  | tail hstart => rw [hu] at hstart; cases hstart

lemma congr (hr : Rest f) (hsealed : f'.sealedAt = f.sealedAt) (hcursor : f'.cursor = f.cursor)
    (hsize : f'.content.size = f.content.size)
    (ha : f.content.Agrees f'.content f.cursor (f.cursor + Header.size)) : Rest f' := by
  cases hr with
  | clean unsealed size => exact .clean (hsealed.trans unsealed) (by omega)
  | torn h unsealed size head large =>
    refine .torn h (hsealed.trans unsealed) (by omega) ?_ large
    rw [hcursor]
    exact head.congr ha
  | tail hstart le => exact .tail (by rw [hsealed, hstart, hcursor]) (by omega)

end Rest

namespace Tiled

lemma cursor_le (ht : f.Tiled row) : f.cursor ≤ f.content.size := ht.rest.cursor_le

lemma cursor_lt (ht : f.Tiled row) : f.cursor < positionLimit :=
  Nat.lt_of_le_of_lt ht.cursor_le ht.below

lemma bounds (ht : f.Tiled row) (hm : (o, h) ∈ row) : o + h.slotSize ≤ f.cursor :=
  (ht.fills.bounds hm).2

lemma empty : (RecordFile.ofContent .empty).Tiled [] :=
  ⟨.nil 0, .clean rfl rfl, by decide⟩

/-! ## Reading -/

/-- **The header of a slot is read** at its position. -/
lemma readHeader (ht : f.Tiled row) (hm : (o, h) ∈ row) : f.readHeader o = .ok h := by
  have hb := ht.bounds hm
  have hc := ht.cursor_le
  have hl := ht.below
  have hs := h.size_le_slotSize
  have hp := h.slotSize_pos
  exact readHeader_eq (ht.fills.headerAt hm) (by omega) (by omega) (by omega)

/-- The payload of a slot fits into it. -/
lemma length_le_capacity (ht : f.Tiled row) (hm : (o, h) ∈ row) :
    Header.size + h.length.toNat ≤ h.slotSize :=
  (ht.fills.headerAt hm).length_le

/-- **Reading a slot** gives its header and payload unless the checksum is wrong. -/
lemma read_eq (ht : f.Tiled row) (hm : (o, h) ∈ row) :
    f.read o = if checksum (payloadAt f o h) ≠ h.checksum
      then .error (.corruption o .checksumMismatch) else .ok (h, payloadAt f o h) :=
  readBounded_eq (ht.fills.headerAt hm) (ht.bounds hm) ht.cursor_le ht.cursor_lt

/-- A payload that is read has the length of its header. -/
lemma length_of_read (ht : f.Tiled row) (hm : (o, h) ∈ row) {payload : Bytes}
    (hread : f.read o = .ok (h, payload)) : payload.length = h.length.toNat := by
  rw [ht.read_eq hm] at hread
  split at hread
  · cases hread
  · cases hread
    exact Content.length_slice _ _ _

/-- A slot is read as in another file that holds the same bytes there. -/
lemma read_congr (ht : f.Tiled row) (ht' : f'.Tiled row') (hm : (o, h) ∈ row)
    (hm' : (o, h) ∈ row') (ha : f'.content.Agrees f.content o (o + h.slotSize)) :
    f'.read o = f.read o := by
  have hp := ht.length_le_capacity hm
  have hpayload : payloadAt f' o h = payloadAt f o h :=
    Content.slice_congr (ha.mono (by omega) (by omega))
  rw [ht.read_eq hm, ht'.read_eq hm', hpayload]

end Tiled

/-! ## What an operation leaves -/

/-- The slots of a row are read from a file as from the file before, and the cursor stays. -/
structure Keeps (f : RecordFile) (row : Row) (f' : RecordFile) : Prop where
  tiled : f'.Tiled row
  cursor : f'.cursor = f.cursor
  reads : ∀ p ∈ row, f'.read p.1 = f.read p.1

/-- One slot of a file is set to a header, or appended with it; the tail is gone. -/
structure Sets (f : RecordFile) (row : Row) (o : Nat) (h : Header) (f' : RecordFile) : Prop where
  tiled : f'.Tiled (Row.put o h row)
  unsealed : f'.sealedAt = none
  cursor : f.cursor ≤ f'.cursor
  reads : ∀ p ∈ row, p.1 ≠ o → f'.read p.1 = f.read p.1

lemma Keeps.refl (ht : f.Tiled row) : Keeps f row f := ⟨ht, rfl, fun _ _ => rfl⟩

lemma Keeps.trans (hk : Keeps f row f') (hk' : Keeps f' row f'') : Keeps f row f'' :=
  ⟨hk'.tiled, hk'.cursor.trans hk.cursor, fun p hp => (hk'.reads p hp).trans (hk.reads p hp)⟩

lemma Keeps.sets (hk : Keeps f row f') (hs : Sets f' row o h f'') : Sets f row o h f'' :=
  ⟨hs.tiled, hs.unsealed, hk.cursor ▸ hs.cursor,
    fun p hp hpo => (hs.reads p hp hpo).trans (hk.reads p hp)⟩

/-- A header that is set twice at one slot is the last one. -/
lemma Sets.again {h' : Header} (hs : Sets f row o h f') (hs' : Sets f' (Row.put o h row) o h' f'') :
    Sets f row o h' f'' where
  tiled := Row.put_put o h h' row ▸ hs'.tiled
  unsealed := hs'.unsealed
  cursor := Nat.le_trans hs.cursor hs'.cursor
  reads p hp hpo :=
    (hs'.reads p (Row.mem_put.mpr (Or.inr ⟨hp, hpo⟩)) hpo).trans (hs.reads p hp hpo)

/-- A file that agrees with a tiled one on the data region keeps its slots. -/
lemma Tiled.keeps (ht : f.Tiled row) (ha : f.content.Agrees f'.content 0 f.cursor)
    (hcursor : f'.cursor = f.cursor) (hr : Rest f') (hbelow : f'.content.size < positionLimit) :
    Keeps f row f' := by
  have ht' : f'.Tiled row := ⟨hcursor ▸ ht.fills.congr ha, hr, hbelow⟩
  refine ⟨ht', hcursor, fun p hp => ?_⟩
  exact ht.read_congr ht' hp hp (ha.symm.mono (Nat.zero_le _) (ht.bounds hp))

/-- A file with one other header in its row, and the same bytes in the other slots, has it set. -/
lemma Tiled.sets (ht : f.Tiled row) (ht' : f'.Tiled (Row.put o h row)) (hu : f'.sealedAt = none)
    (hcursor : f.cursor ≤ f'.cursor)
    (ha : ∀ p ∈ row, p.1 ≠ o → f'.content.Agrees f.content p.1 (p.1 + p.2.slotSize)) :
    Sets f row o h f' := by
  refine ⟨ht', hu, hcursor, fun p hp hpo => ?_⟩
  exact ht.read_congr ht' hp (Row.mem_put.mpr (Or.inr ⟨hp, hpo⟩)) (ha p hp hpo)

/-- Cutting the tail off leaves the bytes in front of the cursor. -/
lemma Tiled.agrees_untailed (ht : f.Tiled row) :
    f.content.Agrees f.untailed.content 0 f.cursor := by
  cases hs : f.sealedAt with
  | none =>
    rw [untailed_of_none hs]
    exact fun _ _ _ => rfl
  | some start =>
    obtain rfl := ht.rest.eq_cursor hs
    rw [untailed_of_some hs]
    exact (f.content.agrees_resize 0 (Nat.le_refl _)).symm

/-- **Cutting the tail off keeps all slots.** -/
lemma Tiled.untailed (ht : f.Tiled row) : Keeps f row f.untailed := by
  cases hs : f.sealedAt with
  | none =>
    rw [untailed_of_none hs]
    exact .refl ht
  | some start =>
    have ha := ht.agrees_untailed
    obtain rfl := ht.rest.eq_cursor hs
    rw [untailed_of_some hs] at ha ⊢
    refine ht.keeps ha rfl (.clean rfl (Content.size_resize _ _)) ?_
    rw [Content.size_resize]
    exact ht.cursor_lt

/-- The tail of a tiled file can be cut off. -/
lemma Tiled.dropTail (ht : f.Tiled row) : dropTail f = .ok () f.untailed :=
  dropTail_eq (ht.rest.sealedAt_lt ht.cursor_lt)

/-! ## Appending -/

lemma length_placeholder (capacity : Nat) : (placeholder capacity).encode.length = Header.size := by
  simp

/-- A header at the cursor changes nothing in front of it. -/
lemma agrees_stamped (f : RecordFile) (size : Nat) :
    f.content.Agrees (f.stamped size) 0 f.cursor :=
  (f.content.agrees_write_of_disjoint (Or.inl (Nat.le_refl _))).symm

/-- A header at the cursor is read there. -/
lemma headerAt_stamped (f : RecordFile) (size : Nat) :
    (f.stamped size).HeaderAt f.cursor (placeholder (size - Header.size)) := by
  have hslice := f.content.slice_write_self f.cursor (placeholder (size - Header.size)).encode
  rw [length_placeholder] at hslice
  rw [Content.HeaderAt, stamped, hslice]
  exact Header.spells_encode (placeholder_fits _)

lemma size_stamped (f : RecordFile) (size : Nat) :
    (f.stamped size).size = max f.content.size (f.cursor + Header.size) := by
  rw [stamped, Content.size_write, length_placeholder]
  simp [← List.length_pos_iff, Header.size]

section Reserve

variable {size : Nat}

/-- A file without a tail ends with the slot that was appended. -/
lemma Tiled.size_appended (ht : f.Tiled row) (hu : f.sealedAt = none) (hsize : Header.size ≤ size) :
    ((f.stamped size).growTo (f.cursor + size)).size = f.cursor + size := by
  have hrest := ht.rest.size_le hu
  rw [Content.size_growTo, size_stamped]
  omega

/-- A file without tail to which a slot was appended. -/
lemma Tiled.appended (ht : f.Tiled row) (hu : f.sealedAt = none) (hsize : Header.size ≤ size)
    (hcap : size - Header.size < lengthLimit) (hpos : f.cursor + size < positionLimit) :
    Sets f row f.cursor (placeholder (size - Header.size))
      { f with content := (f.stamped size).growTo (f.cursor + size),
               cursor := f.cursor + size } := by
  have hgrow := (f.stamped size).agrees_growTo (f.cursor + size)
  have hlength := ht.size_appended hu hsize
  have hfills := ht.fills.put_stop ((f.headerAt_stamped size).congr (hgrow _ _).symm)
    ((f.agrees_stamped size).trans (hgrow _ _).symm)
  rw [slotSize_placeholder hcap, Nat.add_sub_of_le hsize] at hfills
  refine ht.sets ⟨hfills, .clean hu hlength, ?_⟩ hu (Nat.le_add_right _ _) fun p hp _ => ?_
  · rw [hlength]
    exact hpos
  · exact (hgrow _ _).trans ((f.agrees_stamped size).symm.mono (Nat.zero_le _) (ht.bounds hp))

/-- A file without tail after a slot was stamped that could not be appended. -/
lemma Tiled.torn (ht : f.Tiled row) (hu : f.sealedAt = none) (hlarge : Header.size < size)
    (hcap : size - Header.size < lengthLimit) (hpos : f.cursor + Header.size < positionLimit) :
    Keeps f row { f with content := f.stamped size } := by
  have hrest := ht.rest.size_le hu
  have hle := ht.cursor_le
  have hlength : (f.stamped size).size = f.cursor + Header.size := by
    rw [size_stamped]
    omega
  refine ht.keeps (f.agrees_stamped size) rfl (.torn _ hu hlength (f.headerAt_stamped size) ?_) ?_
  · rw [slotSize_placeholder hcap]
    omega
  · rw [hlength]
    exact hpos

/-- **Reserving appends an unused slot**, or fails at the last position and keeps the slots. -/
theorem Tiled.reserve (ht : f.Tiled row) (hsize : Header.size ≤ size)
    (hcap : size - Header.size < lengthLimit) :
    (∃ f', RecordFile.reserve size f = .ok f.cursor f' ∧ f'.cursor = f.cursor + size ∧
        f'.content.size = f.cursor + size ∧
          Sets f row f.cursor (placeholder (size - Header.size)) f') ∨
      (positionLimit ≤ f.cursor + size ∧ ∃ f',
        RecordFile.reserve size f = .error (.file .invalidPosition) f' ∧ Keeps f row f' ∧
          f'.sealedAt = none) := by
  -- The tail is cut off first, so the rest is about the file without it.
  have hk := ht.untailed
  have htu := hk.tiled
  have hu := f.sealedAt_untailed
  rw [← hk.cursor]
  rcases Nat.lt_or_ge (f.untailed.cursor + size) positionLimit with hpos | hpos
  · exact Or.inl ⟨_, reserve_eq hsize hcap ht.dropTail hpos, rfl, htu.size_appended hu hsize,
      hk.sets (htu.appended hu hsize hcap hpos)⟩
  · refine Or.inr ⟨hpos, ?_⟩
    have hsmall : f.untailed.content.size < f.untailed.cursor + size := by
      have := htu.below
      omega
    rcases reserve_eq_error hsize hcap ht.dropTail hpos hsmall with herr | ⟨hput, hlarge, herr⟩
    · exact ⟨_, herr, hk, hu⟩
    · exact ⟨_, herr, hk.trans (htu.torn hu hlarge hcap hput), hu⟩

end Reserve

/-! ## Rewriting -/

/-- A content that differs from a file's only in one slot, where another header of that size
stands. -/
structure Rewrites (f : RecordFile) (o : Nat) (h h' : Header) (c : Content) : Prop where
  slotSize : h'.slotSize = h.slotSize
  size : c.size = f.content.size
  head : c.HeaderAt o h'
  before : f.content.Agrees c 0 o
  behind : ∀ stop, f.content.Agrees c (o + h.slotSize) stop

section Rewrite

variable {h' : Header} {c : Content} {payload : Bytes}

/-- Rewriting a slot leaves the others, and the tail if there is one. -/
lemma Tiled.rewrite (ht : f.Tiled row) (hm : (o, h) ∈ row) (hr : Rewrites f o h h' c) :
    Tiled { f with content := c } (Row.put o h' row) := by
  have hb := ht.bounds hm
  refine ⟨ht.fills.put_of_mem hm hr.slotSize hr.head hr.before (hr.behind f.cursor), ?_,
    hr.size ▸ ht.below⟩
  exact ht.rest.congr rfl rfl hr.size ((hr.behind _).mono hb (Nat.le_refl _))

/-- The other slots are not touched. -/
lemma Tiled.apart_of_rewrites (ht : f.Tiled row) (hm : (o, h) ∈ row) (hr : Rewrites f o h h' c)
    {p : Nat × Header} (hp : p ∈ row) (hpo : p.1 ≠ o) :
    c.Agrees f.content p.1 (p.1 + p.2.slotSize) := by
  rcases ht.fills.apart (o := p.1) (h := p.2) hp hm hpo with hbefore | hbehind
  · exact hr.before.symm.mono (Nat.zero_le _) hbefore
  · exact (hr.behind (p.1 + p.2.slotSize)).symm.mono hbehind (Nat.le_refl _)

/-- **A header that is rewritten in its slot** is set, and no other. -/
lemma Tiled.rewritten (ht : f.Tiled row) (hu : f.sealedAt = none) (hm : (o, h) ∈ row)
    (hr : Rewrites f o h h' c) : Sets f row o h' { f with content := c } :=
  ht.sets (ht.rewrite hm hr) hu (Nat.le_refl _) fun _ hp hpo => ht.apart_of_rewrites hm hr hp hpo

/-- Filling a slot with a payload that fits rewrites it and changes nothing else. -/
lemma Tiled.filled_eq (ht : f.Tiled row) (hm : (o, h) ∈ row) (hslot : h'.slotSize = h.slotSize)
    (hfits : h'.length ≤ h'.capacity) (hlength : h'.length.toNat = payload.length) :
    f.filled o h' payload = { f with content := f.content.write o (h'.encode ++ payload) } ∧
      Rewrites f o h h' (f.content.write o (h'.encode ++ payload)) := by
  have hb := ht.bounds hm
  have hle := ht.cursor_le
  have hcap := UInt32.le_iff_toNat_le.mp hfits
  have hsize : h'.slotSize = Header.size + h'.capacity.toNat := rfl
  have hlen : (h'.encode ++ payload).length = Header.size + payload.length := by simp
  -- The slot lies inside the file, so neither the write nor the growing makes it longer.
  have hwrite : (f.content.write o (h'.encode ++ payload)).size = f.content.size :=
    Content.size_write_of_le _ (by omega)
  have hgrow : (f.content.write o (h'.encode ++ payload)).growTo (o + h'.slotSize) =
      f.content.write o (h'.encode ++ payload) := if_neg (by omega)
  have hhead := f.content.slice_write_append o [] h'.encode payload
  rw [Header.length_encode] at hhead
  refine ⟨by rw [RecordFile.filled, hgrow, Nat.max_eq_left (by omega)], hslot, hwrite, ?_, ?_,
    fun stop => ?_⟩
  · rw [Content.HeaderAt]
    exact hhead.symm ▸ Header.spells_encode hfits
  · exact (Content.agrees_write_of_disjoint _ (Or.inl (Nat.le_refl _))).symm
  · exact (Content.agrees_write_of_disjoint _ (Or.inr (by omega))).symm

/-- The payload of a slot that was filled. -/
lemma payloadAt_write (f : RecordFile) (hlength : h'.length.toNat = payload.length) :
    payloadAt { f with content := f.content.write o (h'.encode ++ payload) } o h' = payload := by
  have hbody := f.content.slice_write_append o h'.encode payload []
  rw [Header.length_encode, List.append_nil] at hbody
  rw [payloadAt, hlength]
  exact hbody

/-- **A payload that is put into a slot** is set and read there, and the file stays as long. -/
lemma Tiled.filled (ht : f.Tiled row) (hu : f.sealedAt = none) (hm : (o, h) ∈ row)
    (hslot : h'.slotSize = h.slotSize) (hfits : h'.length ≤ h'.capacity)
    (hlength : h'.length.toNat = payload.length) :
    Sets f row o h' (f.filled o h' payload) ∧ (f.filled o h' payload).cursor = f.cursor ∧
      (f.filled o h' payload).content.size = f.content.size ∧
      payloadAt (f.filled o h' payload) o h' = payload := by
  obtain ⟨heq, hr⟩ := ht.filled_eq hm hslot hfits hlength
  rw [heq]
  exact ⟨ht.rewritten hu hm hr, rfl, hr.size, f.payloadAt_write hlength⟩

end Rewrite

/-- **Writing a payload** sets a slot that it fits into, and the payload is read from there. -/
theorem Tiled.writePayload (ht : f.Tiled row) (hm : (o, h) ∈ row) (stamp : Stamp)
    {payload : Bytes} {capacity : Nat} (hsize : h.slotSize = Header.size + capacity)
    (hfit : payload.length ≤ capacity) :
    ∃ f', RecordFile.writePayload o stamp payload capacity f =
        .ok (.ofPayload stamp payload capacity) f' ∧
      Sets f row o (.ofPayload stamp payload capacity) f' ∧ f'.cursor = f.cursor ∧
      f'.content.size = f.untailed.content.size ∧
      f'.read o = .ok (.ofPayload stamp payload capacity, payload) := by
  have hcap := h.capacity_lt hsize
  have hk := ht.untailed
  have hb := ht.bounds hm
  have hlt := ht.cursor_lt
  obtain ⟨hsets, hcursor, hlength, hpayload⟩ := hk.tiled.filled f.sealedAt_untailed hm
    ((Header.slotSize_ofPayload hcap).trans hsize.symm) (Header.ofPayload_fits hfit hcap)
    (Header.length_ofPayload hfit hcap)
  refine ⟨_, writePayload_eq hfit hcap (by omega) ht.dropTail (by omega), hk.sets hsets,
    hcursor.trans hk.cursor, hlength, ?_⟩
  rw [hsets.tiled.read_eq (Row.mem_put.mpr (Or.inl rfl)), hpayload]
  exact if_neg (not_not.mpr rfl)

/-- **Appending** puts a payload into a new slot. -/
theorem Tiled.append (ht : f.Tiled row) (stamp : Stamp) {payload : Bytes} {capacity : Nat}
    (hfit : payload.length ≤ capacity) (hcap : capacity < lengthLimit)
    (hpos : f.cursor + (Header.size + capacity) < positionLimit) :
    ∃ f', RecordFile.append stamp payload capacity f = .ok f.cursor f' ∧
      Sets f row f.cursor (.ofPayload stamp payload capacity) f' ∧
      f'.cursor = f.cursor + (Header.size + capacity) ∧ f'.content.size = f'.cursor ∧
      f'.read f.cursor = .ok (.ofPayload stamp payload capacity, payload) := by
  have hcapacity : Header.size + capacity - Header.size = capacity := by omega
  rcases ht.reserve (Nat.le_add_right Header.size capacity) (hcapacity.symm ▸ hcap) with
    ⟨f₁, hreserve, hcursor₁, hsize₁, hsets₁⟩ | ⟨hfull, _⟩
  · rw [hcapacity] at hsets₁
    obtain ⟨f₂, hwrite, hsets₂, hcursor₂, hsize₂, hread⟩ := hsets₁.tiled.writePayload
      (Row.mem_put.mpr (Or.inl rfl)) stamp (slotSize_placeholder hcap) hfit
    rw [untailed_of_none hsets₁.unsealed] at hsize₂
    refine ⟨f₂, ?_, hsets₁.again hsets₂, hcursor₂.trans hcursor₁, by omega, hread⟩
    rw [RecordFile.append, Steps.bind_of_ok hreserve, Steps.bind_of_ok hwrite]
    rfl
  · omega

/-- **Marking a slot unused** sets it to its tombstone. -/
theorem Tiled.markUnused (ht : f.Tiled row) (hm : (o, h) ∈ row) :
    ∃ f', RecordFile.markUnused o f = .ok () f' ∧ Sets f row o h.tombstone f' ∧
      f'.cursor = f.cursor := by
  have hk := ht.untailed
  have htu := hk.tiled
  have hb := htu.bounds hm
  have hle := htu.cursor_le
  have hlt := htu.cursor_lt
  have hhdr : 36 ≤ h.slotSize := h.size_le_slotSize
  have hpos : o + 2 < positionLimit := by omega
  -- One byte is written, the one with the flag in it.
  have hhead : (f.untailed.content.write (o + 1) [0]).HeaderAt o h.tombstone := by
    rw [Content.HeaderAt, Content.slice_write_byte]
    exact (htu.fills.headerAt hm).clearFlag
  have hr : Rewrites f.untailed o h h.tombstone (f.untailed.content.write (o + 1) [0]) := {
    slotSize := h.slotSize_tombstone
    size := Content.size_write_of_le _ (by simp only [List.length_singleton]; omega)
    head := hhead
    before := (Content.agrees_write_of_disjoint _ (Or.inl (Nat.le_succ _))).symm
    behind := fun stop => (Content.agrees_write_of_disjoint _
      (Or.inr (by simp only [List.length_singleton]; omega))).symm }
  have hsets := htu.rewritten f.sealedAt_untailed hm hr
  exact ⟨_, markUnused_eq (ht.readHeader hm) ht.dropTail hpos, hk.sets hsets, hk.cursor⟩

/-- The payload of a slot that is marked unused stays. -/
lemma Tiled.payloadAt_of_markUnused (ht : f.Tiled row) (hm : (o, h) ∈ row)
    (hok : RecordFile.markUnused o f = .ok () f') :
    payloadAt f' o h.tombstone = payloadAt f o h := by
  have hb := ht.bounds hm
  have hlt := ht.cursor_lt
  have hl := ht.length_le_capacity hm
  have hhdr : Header.size = 36 := rfl
  have hmark := markUnused_eq (ht.readHeader hm) ht.dropTail (by omega)
  cases hok.symm.trans hmark
  have ha : (f.untailed.content.write (o + 1) [0]).Agrees f.content (o + Header.size)
      (o + Header.size + h.length.toNat) :=
    (Content.agrees_write_of_disjoint _ (Or.inr (by simp only [List.length_singleton]; omega))).trans
      (ht.agrees_untailed.symm.mono (Nat.zero_le _) (by omega))
  exact Content.slice_congr ha

/-! ## Sealing -/

section Seal

variable (f) (stamp : Stamp) (payload : Bytes)

/-- A sealed file ends with its tail. -/
lemma size_withTail : (f.withTail stamp payload).size =
    f.cursor + (Header.size + payload.length + Footer.size) := by
  have hlen := length_tail f.cursor stamp payload
  have hne : tail f.cursor stamp payload ≠ [] :=
    List.length_pos_iff.mp (by rw [hlen, Header.size]; omega)
  rw [withTail, Content.size_write _ _ _ hne, Content.size_resize, hlen]
  omega

/-- Sealing changes nothing in front of the cursor. -/
lemma agrees_withTail : f.content.Agrees (f.withTail stamp payload) 0 f.cursor :=
  (f.content.agrees_resize 0 (Nat.le_refl _)).symm.trans
    (Content.agrees_write_of_disjoint _ (Or.inl (Nat.le_refl _))).symm

/-- The tail of a sealed file is read behind the cursor. -/
lemma slice_withTail : (f.withTail stamp payload).slice f.cursor
    (Header.size + payload.length + Footer.size) = tail f.cursor stamp payload := by
  rw [← length_tail f.cursor stamp payload]
  exact Content.slice_write_self _ _ _

variable {f}

/-- **Sealing keeps the slots**, and either puts a whole tail behind them or leaves none. -/
theorem Tiled.sealWith (ht : f.Tiled row) :
    (∃ f', RecordFile.sealWith stamp payload f = .ok f.cursor f' ∧ Keeps f row f' ∧
        f'.sealedAt = some f.cursor ∧ payload.length < lengthLimit ∧
        f'.content.size = f.cursor + (Header.size + payload.length + Footer.size) ∧
        f'.content.slice f.cursor (Header.size + payload.length + Footer.size) =
          tail f.cursor stamp payload) ∨
      ((lengthLimit ≤ payload.length ∨
          positionLimit ≤ f.cursor + (Header.size + payload.length + Footer.size)) ∧
        ∃ e f', RecordFile.sealWith stamp payload f = .error e f' ∧ Keeps f row f' ∧
          f'.sealedAt = none) := by
  have hk := ht.untailed
  have htu := hk.tiled
  have hu := f.sealedAt_untailed
  have hlt := htu.cursor_lt
  rw [← hk.cursor]
  rcases Nat.lt_or_ge payload.length lengthLimit with hshort | hlong
  · rcases Nat.lt_or_ge (f.untailed.cursor + (Header.size + payload.length + Footer.size))
      positionLimit with hpos | hpos
    · have hsize := f.untailed.size_withTail stamp payload
      refine Or.inl ⟨_, sealWith_eq hshort ht.dropTail hpos,
        hk.trans (htu.keeps (agrees_withTail _ _ _) rfl ?_ (hsize ▸ hpos)), rfl, hshort, hsize,
        slice_withTail _ _ _⟩
      refine .tail rfl ?_
      dsimp only
      omega
    · have hcut := f.untailed.content.agrees_resize 0 (Nat.le_refl f.untailed.cursor)
      have hsize := f.untailed.content.size_resize f.untailed.cursor
      have hbelow := Nat.lt_of_le_of_lt (Nat.le_of_eq hsize) hlt
      exact Or.inr ⟨Or.inr hpos, _, _, sealWith_pastEnd hshort ht.dropTail hlt hpos,
        hk.trans (htu.keeps hcut.symm rfl (.clean hu hsize) hbelow), hu⟩
  · exact Or.inr ⟨Or.inl hlong, _, _, sealWith_tooLarge hlong ht.dropTail, hk, hu⟩

end Seal

end SlotStore.RecordFile
