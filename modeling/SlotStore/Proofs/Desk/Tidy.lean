import Mathlib.Tactic.Common
import SlotStore.Proofs.Desk.Calls
import SlotStore.Proofs.Volume.Scanned

/-!
# Callers that keep to their slots

While callers write and mark only slots that were handed out to them, the slots tile the file in the
order in which they were handed out, and a tail is whole.  This holds also if a payload is committed
after the file was sealed, since it goes into a slot in front of the tail.

* `Desk.Tidy` : the slots that were handed out tile the file;
* `Desk.Tidy.commit_fills`, `Desk.Tidy.commit_rewrites` : what committing a payload does to it.
-/

namespace SlotStore.Desk

open Steps RecordFile Volume

variable {d : Desk} {row : Row} {f : RecordFile} {calls : List Call}

/-- **The slots that were handed out tile the file**, payloads on their way fit into their slots,
and a tail is whole. -/
structure Tidy (d : Desk) (row : Row) : Prop where
  tiled : d.file.Tiled row
  slots : d.slots = row.extents
  pending : ∀ p ∈ d.pending, (p.writer.start, Header.size + p.writer.capacity) ∈ d.slots ∧
    p.writer.length ≤ p.writer.capacity
  tail : ∀ start, d.file.sealedAt = some start →
    ∃ stamp payload, EndsIn d.file.content start stamp payload

namespace Tidy

/-- Each slot of a tidy desk has its header in the row. -/
lemma slot (ht : d.Tidy row) {o n : Nat} (hs : (o, n) ∈ d.slots) :
    ∃ h, (o, h) ∈ row ∧ h.slotSize = n := by
  rw [ht.slots] at hs
  obtain ⟨p, hp, heq⟩ := List.mem_map.mp hs
  cases heq
  exact ⟨p.2, hp, rfl⟩

/-- No two slots begin at one position. -/
lemma slot_unique (ht : d.Tidy row) {o n n' : Nat} (hs : (o, n) ∈ d.slots)
    (hs' : (o, n') ∈ d.slots) : n = n' := by
  obtain ⟨h, hm, rfl⟩ := ht.slot hs
  obtain ⟨h', hm', rfl⟩ := ht.slot hs'
  rw [ht.tiled.fills.header_unique hm hm']

/-- A file that keeps the row leaves the desk tidy. -/
lemma keep (ht : d.Tidy row) (hk : Keeps d.file row f) (hu : f.sealedAt = none) :
    { d with file := f }.Tidy row :=
  ⟨hk.tiled, ht.slots, ht.pending, fun start hs => by rw [hu] at hs; cases hs⟩

lemma set (ht : d.Tidy row) {o : Nat} {h h' : Header} (hm : (o, h) ∈ row)
    (hsize : h'.slotSize = h.slotSize) (hs : Sets d.file row o h' f) (changed : Bool) :
    { d with file := f, changed }.Tidy (row.put o h') where
  tiled := hs.tiled
  slots := ht.slots.trans (ht.tiled.fills.extents_put_of_mem hm hsize).symm
  pending := ht.pending
  tail start hstart := by
    rw [hs.unsealed] at hstart
    cases hstart

/-- A payload that takes one more piece keeps its slot. -/
lemma write_fields (w : Writer) (piece : Bytes) : (w.write piece).2.start = w.start ∧
    (w.write piece).2.capacity = w.capacity ∧ (w.write piece).2.length = w.length := by
  rw [Writer.write]
  split <;> exact ⟨rfl, rfl, rfl⟩

/-- A slot is rewritten in front of the tail, if there is one. -/
lemma rewrite (ht : d.Tidy row) {o : Nat} {h h' : Header} {c : Content} (hm : (o, h) ∈ row)
    (hr : Rewrites d.file o h h' c) (changed late : Bool) :
    { d with file := { d.file with content := c }, changed, late }.Tidy (row.put o h') where
  tiled := ht.tiled.rewrite hm hr
  slots := ht.slots.trans (ht.tiled.fills.extents_put_of_mem hm hr.slotSize).symm
  pending := ht.pending
  tail start hs := by
    obtain ⟨stamp, payload, hends⟩ := ht.tail start hs
    have hb := ht.tiled.bounds hm
    have hstart := ht.tiled.rest.eq_cursor hs
    exact ⟨stamp, payload,
      hends.congr hr.size ((hr.behind _).mono (by omega) (Nat.le_refl _))⟩

/-- Committing a complete payload rewrites its slot. -/
lemma commit_fills (ht : d.Tidy row) {p : Pending} (hp : p ∈ d.pending)
    (hcomplete : p.writer.Complete) :
    ∃ h c, (p.writer.start, h) ∈ row ∧ h.slotSize = Header.size + p.writer.capacity ∧
      Rewrites d.file p.writer.start h p.writer.header c ∧
      payloadAt { d.file with content := c } p.writer.start p.writer.header = p.writer.gathered ∧
      RecordFile.commit p.writer d.file = .ok p.writer.header { d.file with content := c } := by
  obtain ⟨hslot, hfit⟩ := ht.pending p hp
  obtain ⟨h, hm, hsize⟩ := ht.slot hslot
  have hb := ht.tiled.bounds hm
  have hlt := ht.tiled.cursor_lt
  have hcap := h.capacity_lt hsize
  have hfit : p.writer.gathered.length ≤ p.writer.capacity := hcomplete.2 ▸ hfit
  have hheader := header_of_gathered hcomplete.2
  have hsame : p.writer.header.slotSize = h.slotSize := by
    rw [hheader, Header.slotSize_ofPayload hcap, hsize]
  have hlength : p.writer.header.length.toNat = p.writer.gathered.length :=
    hheader ▸ Header.length_ofPayload hfit hcap
  obtain ⟨hfilled, hr⟩ := ht.tiled.filled_eq hm hsame
    (hheader ▸ Header.ofPayload_fits hfit hcap) hlength
  have hfill : fillSlot p.writer.start p.writer.header p.writer.gathered d.file = _ :=
    fillSlot_eq (by omega) (by omega)
  refine ⟨h, _, hm, hsize, hr, d.file.payloadAt_write hlength, ?_⟩
  rw [commit_complete hcomplete, bind_of_ok hfill, hfilled]
  rfl

/-- Committing a payload rewrites its slot, unless it is incomplete. -/
lemma commit_rewrites (ht : d.Tidy row) {p : Pending} (hp : p ∈ d.pending) :
    (∃ e, RecordFile.commit p.writer d.file = .error e d.file) ∨
      ∃ h h' c, (p.writer.start, h) ∈ row ∧ Rewrites d.file p.writer.start h h' c ∧
        RecordFile.commit p.writer d.file = .ok h' { d.file with content := c } := by
  by_cases hcomplete : p.writer.Complete
  · obtain ⟨h, c, hm, _, hr, _, hok⟩ := ht.commit_fills hp hcomplete
    exact Or.inr ⟨h, _, c, hm, hr, hok⟩
  · exact Or.inl ⟨_, commit_incomplete hcomplete⟩

end Tidy

end SlotStore.Desk
