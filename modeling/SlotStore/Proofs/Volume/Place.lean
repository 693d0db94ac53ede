import Mathlib.Tactic.Common
import SlotStore.Proofs.Toc.Veiled
import SlotStore.Proofs.Volume.Sound

/-!
# Payloads put into slots

A payload is put into a slot that the table gives out, or else into a new one.  Either way the slot
was out of use as far as the table shows, the other slots are read as before, and the table no
longer knows the slot: it enters the table as the slot of its key.

* `Volume.Loose` : the table of a volume describes a veil of the slots in its file;
* `Volume.Placed` : what placing a payload leaves;
* `Volume.Loose.place` : placing succeeds unless the file would reach past the last position.
-/

namespace SlotStore

namespace Volume

open Steps

variable {v v' : Volume} {row shown : Row} {used : List Key} {drawn : Nat} {k : Key} {stamp : Stamp}
  {payload : Bytes} {o size : Nat}

/-- **The slots of a volume tile its file, and its table describes a veil of them**: it may take
slots for free that are in use. -/
structure Loose (v : Volume) (row shown : Row) : Prop where
  tiled : v.file.Tiled row
  described : v.toc.Describes shown
  veils : shown.Veils row
  ready : v.toc.ready = true
  signal : v.toc.signal = .succeeded

/-- The table of a sound volume hides nothing. -/
lemma Sound.loose (hs : Sound v row used drawn) : Loose v row row :=
  ⟨hs.tiled, hs.described, .refl row, hs.ready, hs.signal⟩

/-- What a placed payload leaves: one slot was set, and the table does not know it. -/
structure Placed (v : Volume) (row shown : Row) (stamp : Stamp) (payload : Bytes) (o size : Nat)
    (v' : Volume) : Prop where
  sets : RecordFile.Sets v.file row o (.ofPayload stamp payload (size - Header.size)) v'.file
  slotSize : (Header.ofPayload stamp payload (size - Header.size)).slotSize = size
  read : v'.file.read o = .ok (.ofPayload stamp payload (size - Header.size), payload)
  idle : ∀ p ∈ shown, p.1 = o → p.2.inUse = false
  described : v'.toc.Describes (shown.without o)
  live : ∀ k e, v.toc.find? k = some e → e.isFree = false → v'.toc.find? k = some e
  absent : ∀ k, v.toc.find? k = none → v'.toc.find? k = none
  nextVersion : v'.toc.nextVersion = v.toc.nextVersion
  ready : v'.toc.ready = v.toc.ready
  signal : v'.toc.signal = v.toc.signal

/-- What a file is left with if nothing could be placed: it may have lost its tail. -/
def Left (f : RecordFile) (row : Row) (f' : RecordFile) : Prop :=
  f' = f ∨ RecordFile.Keeps f row f' ∧ f'.sealedAt = none

/-- The second half of placing: the payload is written into the slot that was found. -/
def settle (stamp : Stamp) (payload : Bytes) (place : Nat × Nat) : VolumeM (Nat × Nat) :=
  tryCatch
    (do
      let _ ← onFile (RecordFile.writePayload place.1 stamp payload (place.2 - Header.size))
      return (place.1, place.2))
    fun e => do
      onToc (Toc.retire {
        key := Key.reserved, offset := place.1, size := place.2, isFree := true, version := 0 })
      throw e

/-- A slot that is large enough takes the payload. -/
lemma settle_eq {h : Header} (ht : v.file.Tiled row) (hm : (o, h) ∈ row) (stamp : Stamp)
    (hfit : Header.size + payload.length ≤ h.slotSize) :
    ∃ f, settle stamp payload (o, h.slotSize) v = .ok (o, h.slotSize) { v with file := f } ∧
      RecordFile.Sets v.file row o (.ofPayload stamp payload (h.slotSize - Header.size)) f ∧
      f.read o = .ok (.ofPayload stamp payload (h.slotSize - Header.size), payload) := by
  have hsize := h.size_le_slotSize
  have hfit : payload.length ≤ h.slotSize - Header.size := by omega
  obtain ⟨f, hwrite, hsets, _, _, hread⟩ := ht.writePayload hm stamp (by omega) hfit
  exact ⟨f, tryCatch_of_ok ((bind_of_ok (onFile_ok hwrite)).trans rfl), hsets, hread⟩

/-- Why a payload could not be placed: no slot can hold it, or a new one would reach past the last
position. -/
inductive NoRoom (v : Volume) (payload : Bytes) : Error → Prop
  | length (hlength : lengthLimit ≤ payload.length) :
    NoRoom v payload (.payloadTooLarge payload.length)
  | position
    (hposition : positionLimit ≤ v.file.cursor + (Header.size + payload.length)) :
    NoRoom v payload (.file .invalidPosition)

lemma Loose.placeFound (hl : Loose v row shown) {e : Entry}
    (hfound : v.toc.freeSlot? (Header.size + payload.length) = some e) :
    ∃ o size v', Volume.place stamp payload v = .ok (o, size) v' ∧
      Placed v row shown stamp payload o size v' := by
  obtain ⟨hlarge, _⟩ := Toc.mem_of_freeSlot? hfound
  obtain ⟨hdescribed, ⟨h, hm, hsize, hidle⟩, hother⟩ := hl.described.release hfound
  obtain ⟨h', hm', hsame⟩ := hl.veils.slotSize hm
  rw [← hsame] at hsize
  obtain ⟨hversion, hready, hsignal⟩ := v.toc.release_fields e
  have hhdr := h'.size_le_slotSize
  have hword : h'.capacity.toNat < lengthLimit := h'.capacity.toNat_lt
  have hcapacity : h'.slotSize - Header.size = h'.capacity.toNat := by
    rw [Header.slotSize]
    omega
  obtain ⟨f, hsettle, hsets, hread⟩ := settle_eq (v := ⟨v.file, v.toc.release e⟩) hl.tiled
    hm' stamp (hsize ▸ hlarge)
  have hplace : Volume.place stamp payload v =
      .ok (e.offset, h'.slotSize) ⟨f, v.toc.release e⟩ := by
    rw [Volume.place, get_bind, Toc.takeFreeSlot?, hfound]
    exact (bind_of_ok rfl).trans (hsize ▸ hsettle)
  refine ⟨_, _, _, hplace, {
    sets := hsets
    slotSize := by rw [Header.slotSize_ofPayload (by omega)]; omega
    read := hread
    idle := fun p hp hpo => ?_
    described := hdescribed
    live := fun k own hk hlive => ?_
    absent := fun k hk => ?_
    nextVersion := hversion
    ready := hready
    signal := hsignal }⟩
  · rw [hl.described.single (show (e.offset, p.2) ∈ shown from hpo ▸ hp) hm]
    exact hidle
  · rcases hother k with hsame | ⟨hown, hfree⟩
    · exact hsame.trans hk
    · cases hown.symm.trans hk
      rw [hlive] at hfree
      cases hfree
  · rcases hother k with hsame | ⟨hown, _⟩
    · exact hsame.trans hk
    · cases hown.symm.trans hk

lemma Loose.placeNew (hl : Loose v row shown)
    (hnone : v.toc.freeSlot? (Header.size + payload.length) = none) :
    (∃ o size v', Volume.place stamp payload v = .ok (o, size) v' ∧
      Placed v row shown stamp payload o size v') ∨
    ∃ e f, Volume.place stamp payload v = .error e { v with file := f } ∧ NoRoom v payload e ∧
      Left v.file row f := by
  have hcapacity : Header.size + payload.length - Header.size = payload.length := by omega
  have hreserve : Volume.place stamp payload v = (onFile (RecordFile.reserve
      (Header.size + payload.length)) >>= fun o =>
        settle stamp payload (o, Header.size + payload.length)) v := by
    rw [Volume.place, get_bind, Toc.takeFreeSlot?, hnone]
    rfl
  rw [hreserve]
  rcases Nat.lt_or_ge payload.length lengthLimit with hshort | hlong
  · rcases hl.tiled.reserve (Nat.le_add_right Header.size payload.length)
      (hcapacity.symm ▸ hshort) with ⟨f₁, hok, _, _, hsets₁⟩ | ⟨hpos, f₁, herr, hkeeps, hu⟩
    · left
      rw [hcapacity] at hsets₁
      have hslot : (RecordFile.placeholder payload.length).slotSize =
          Header.size + payload.length := RecordFile.slotSize_placeholder hshort
      have hno : ∀ p ∈ shown, p.1 ≠ v.file.cursor :=
        hl.veils.offset_ne hl.tiled.fills.offset_ne_stop
      have hfit : Header.size + payload.length ≤
          (RecordFile.placeholder payload.length).slotSize := Nat.le_of_eq hslot.symm
      obtain ⟨f₂, hsettle, hsets₂, hread⟩ := settle_eq (v := ⟨f₁, v.toc⟩) hsets₁.tiled
        (Row.mem_put.mpr (Or.inl rfl)) stamp hfit
      rw [hslot] at hsettle hsets₂ hread
      refine ⟨_, _, _, (bind_of_ok (onFile_ok hok)).trans hsettle, {
        sets := hsets₁.again hsets₂
        slotSize := by rw [hcapacity, Header.slotSize_ofPayload hshort]
        read := hread
        idle := fun p hp heq => absurd heq (hno p hp)
        described := hl.described.congr (.refl _) fun p => ?_
        live := fun _ _ hk _ => hk
        absent := fun _ hk => hk
        nextVersion := rfl
        ready := rfl
        signal := rfl }⟩
      rw [Row.mem_without]
      exact ⟨And.left, fun hp => ⟨hp, hno p hp⟩⟩
    · right
      exact ⟨_, _, bind_of_error (onFile_error herr), .position hpos, Or.inr ⟨hkeeps, hu⟩⟩
  · right
    have htooLarge := RecordFile.reserve_tooLarge (f := v.file)
      (Nat.le_add_right Header.size payload.length) (hcapacity.symm ▸ hlong)
    rw [hcapacity] at htooLarge
    exact ⟨_, _, bind_of_error (onFile_error htooLarge), .length hlong, Or.inl rfl⟩

/-- **Placing a payload** sets one slot, or fails for want of room and keeps all slots. -/
theorem Loose.place (hl : Loose v row shown) (stamp : Stamp) (payload : Bytes) :
    (∃ o size v', Volume.place stamp payload v = .ok (o, size) v' ∧
      Placed v row shown stamp payload o size v') ∨
    ∃ e f, Volume.place stamp payload v = .error e { v with file := f } ∧ NoRoom v payload e ∧
      Left v.file row f := by
  cases hfound : v.toc.freeSlot? (Header.size + payload.length) with
  | some e => exact Or.inl (hl.placeFound hfound)
  | none => exact hl.placeNew hfound

end Volume

end SlotStore
