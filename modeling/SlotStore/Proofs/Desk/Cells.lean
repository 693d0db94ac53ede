import Mathlib.Tactic.Common
import SlotStore.Proofs.Desk.Tidy

/-!
# Slots are independent cells

Each slot that is handed out is a cell of its own.  It holds what was last put into it, whatever
happens to the other slots, to the tail, and to payloads that are begun and not committed yet.  All
slots are found by a scan, those too that nothing was ever put into.

* `Cell`, `Desk.note` : what a cell holds, told from the calls alone;
* `Desk.Stocked` : the slots of the file are the cells;
* `Desk.Stocked.act` : one call in order keeps that;
* `Desk.Session` : calls in order one after another, the tail being cut off in between;
* `Desk.Session.slots_are_cells` : after every session the slots are found and read as cells.
-/

namespace SlotStore

/-- What was last put into a slot, and whether it was marked unused since. -/
structure Cell where
  stamp : Stamp
  payload : Bytes
  inUse : Bool
deriving DecidableEq, Repr

namespace Cell

/-- The cell that nothing was put into. -/
def blank : Cell := ⟨⟨.reserved, 0⟩, [], false⟩

/-- The header of a slot of some capacity that holds a cell. -/
def header (c : Cell) (capacity : Nat) : Header :=
  { Header.ofPayload c.stamp c.payload capacity with inUse := c.inUse }

end Cell

/-- The cell of each slot, by its offset. -/
abbrev Cells := Nat → Cell

namespace Cells

/-- The cells with another one at an offset. -/
def set (cells : Cells) (start : Nat) (c : Cell) : Cells :=
  fun o => if o = start then c else cells o

/-- The slots of a file, with the headers that their cells have. -/
def row (cells : Cells) (slots : List (Nat × Nat)) : Row :=
  slots.map fun x => (x.1, (cells x.1).header (x.2 - Header.size))

end Cells

namespace Desk

open Steps RecordFile

variable {d : Desk} {f : RecordFile} {cells : Cells} {calls : List Call}

/-- **What a call puts into the cells.**  A payload that is too long for its slot, and one that is
committed before it is complete, are not put in. -/
def note (d : Desk) (cells : Cells) : Call → Cells
  | .write start stamp payload capacity =>
    if payload.length ≤ capacity then cells.set start ⟨stamp, payload, true⟩ else cells
  | .commit i =>
    match d.pending[i]? with
    | some p =>
      if p.writer.Complete then
        cells.set p.writer.start ⟨p.writer.stamp, p.writer.gathered, true⟩
      else cells
    | none => cells
  | .mark start => cells.set start { cells start with inUse := false }
  | .reserve _ | .begin .. | .feed .. | .sealWith .. => cells

/-- **The slots of the file are the cells**, and no cell beyond them was touched. -/
structure Stocked (d : Desk) (cells : Cells) : Prop where
  tidy : d.Tidy (cells.row d.slots)
  reads : ∀ x ∈ d.slots,
    d.file.read x.1 = .ok ((cells x.1).header (x.2 - Header.size), (cells x.1).payload)
  beyond : ∀ o, d.file.cursor ≤ o → cells o = .blank

namespace Stocked

lemma mem_row (cells : Cells) {x : Nat × Nat} (hx : x ∈ d.slots) :
    (x.1, (cells x.1).header (x.2 - Header.size)) ∈ cells.row d.slots :=
  List.mem_map.mpr ⟨x, hx, rfl⟩

section Slot

variable {o capacity : Nat} (hslot : (o, Header.size + capacity) ∈ d.slots)

include hslot

lemma mem_row_of_slot (cells : Cells) : (o, (cells o).header capacity) ∈ cells.row d.slots := by
  have hm := mem_row cells hslot
  rwa [Nat.add_sub_cancel_left] at hm

/-- **A slot is read as its cell says.** -/
lemma read_slot (hs : d.Stocked cells) :
    d.file.read o = .ok ((cells o).header capacity, (cells o).payload) := by
  have hread := hs.reads _ hslot
  rwa [Nat.add_sub_cancel_left] at hread

/-- The header of a cell spans the slot. -/
lemma slotSize_header (hs : d.Stocked cells) (c : Cell) :
    (c.header capacity).slotSize = Header.size + capacity := by
  obtain ⟨h, _, hsize⟩ := hs.tidy.slot hslot
  have hword : (UInt32.ofNat capacity).toNat = capacity :=
    Header.toNat_ofNat_of_lt (h.capacity_lt hsize)
  exact congrArg (Header.size + ·) hword

/-- Changing one cell changes one header of the row. -/
lemma row_set (hs : d.Stocked cells) (c : Cell) :
    (cells.set o c).row d.slots = (cells.row d.slots).put o (c.header capacity) := by
  rw [Row.put, if_pos ⟨_, mem_row_of_slot hslot cells, rfl⟩, Cells.row, Cells.row, List.map_map]
  refine List.map_congr_left fun x hx => ?_
  by_cases hxo : x.1 = o
  · have hsize : x.2 = Header.size + capacity := hs.tidy.slot_unique (hxo ▸ hx) hslot
    simp [Cells.set, hxo, hsize]
  · simp [Cells.set, hxo]

/-- A desk where one slot was rewritten holds another cell there. -/
lemma put (hs : d.Stocked cells) {d' : Desk} {c : Cell}
    (ht : d'.Tidy ((cells.row d.slots).put o (c.header capacity))) (hslots : d'.slots = d.slots)
    (hcursor : d'.file.cursor = d.file.cursor)
    (hread : d'.file.read o = .ok (c.header capacity, c.payload))
    (hothers : ∀ p ∈ cells.row d.slots, p.1 ≠ o → d'.file.read p.1 = d.file.read p.1) :
    d'.Stocked (cells.set o c) := by
  have hb := hs.tidy.tiled.bounds (mem_row_of_slot hslot cells)
  have hpos := ((cells o).header capacity).slotSize_pos
  refine ⟨?_, fun x hx => ?_, fun i hi => ?_⟩
  · rw [hslots, hs.row_set hslot]
    exact ht
  · rw [hslots] at hx
    by_cases hxo : x.1 = o
    · have hsize : x.2 = Header.size + capacity := hs.tidy.slot_unique (hxo ▸ hx) hslot
      rw [hxo, hsize, Nat.add_sub_cancel_left, Cells.set, if_pos rfl]
      exact hread
    · rw [Cells.set, if_neg hxo]
      exact (hothers _ (mem_row _ hx) hxo).trans (hs.reads x hx)
  · rw [hcursor] at hi
    rw [Cells.set, if_neg (by omega)]
    exact hs.beyond i hi

end Slot

/-- A file that keeps the slots keeps the cells. -/
lemma keep (hs : d.Stocked cells) (hk : Keeps d.file (cells.row d.slots) f)
    (hu : f.sealedAt = none) : { d with file := f }.Stocked cells where
  tidy := hs.tidy.keep hk hu
  reads x hx := (hk.reads _ (mem_row _ hx)).trans (hs.reads x hx)
  beyond o ho := hs.beyond o (Nat.le_trans (Nat.le_of_eq hk.cursor.symm) ho)

/-- Payloads may be on their way to slots that they fit into. -/
lemma pend (hs : d.Stocked cells) {pending : List Pending}
    (hp : ∀ p ∈ pending, (p.writer.start, Header.size + p.writer.capacity) ∈ d.slots ∧
      p.writer.length ≤ p.writer.capacity) : { d with pending }.Stocked cells :=
  ⟨⟨hs.tidy.tiled, hs.tidy.slots, hp, hs.tidy.tail⟩, hs.reads, hs.beyond⟩

lemma erase (hs : d.Stocked cells) (i : Nat) :
    { d with pending := d.pending.eraseIdx i }.Stocked cells :=
  hs.pend fun p hp => hs.tidy.pending p (List.mem_of_mem_eraseIdx hp)

/-! ## The calls -/

/-- A new slot is blank. -/
lemma appended (hs : d.Stocked cells) {size : Nat} (hsize : Header.size ≤ size)
    (hcap : size - Header.size < lengthLimit) (hcursor : f.cursor = d.file.cursor + size)
    (hset : Sets d.file (cells.row d.slots) d.file.cursor (placeholder (size - Header.size)) f) :
    { d with file := f, slots := d.slots ++ [(d.file.cursor, size)], changed := true }.Stocked
      cells := by
  -- Nothing was put into a cell at the cursor yet, and the header of a new slot says as much.
  have hblank := hs.beyond _ (Nat.le_refl d.file.cursor)
  have hnew := hs.tidy.tiled.fills.offset_ne_stop
  have hslot : (placeholder (size - Header.size)).slotSize = size := by
    rw [slotSize_placeholder hcap]
    omega
  have hrow : cells.row (d.slots ++ [(d.file.cursor, size)]) =
      (cells.row d.slots).put d.file.cursor (placeholder (size - Header.size)) := by
    rw [Row.put_eq_append hnew, Cells.row, List.map_append, ← Cells.row, List.map_singleton, hblank]
    rfl
  refine ⟨⟨?_, ?_, fun p hp => ?_, fun start hstart => ?_⟩, fun x hx => ?_, fun o ho => ?_⟩
  · exact hrow ▸ hset.tiled
  · rw [hrow, hs.tidy.tiled.fills.extents_put_stop, hslot, ← hs.tidy.slots]
  · obtain ⟨hmem, hle⟩ := hs.tidy.pending p hp
    exact ⟨List.mem_append_left _ hmem, hle⟩
  · cases hset.unsealed.symm.trans hstart
  · rcases List.mem_append.mp hx with hx | hx
    · exact (hset.reads _ (mem_row _ hx) (hnew _ (mem_row _ hx))).trans (hs.reads x hx)
    · obtain rfl := List.mem_singleton.mp hx
      rw [hblank, hset.tiled.read_eq (Row.mem_put.mpr (Or.inl rfl))]
      exact if_neg (not_not.mpr rfl)
  · exact hs.beyond o (Nat.le_trans hset.cursor ho)

/-- **A new slot** begins as a blank cell. -/
lemma reserve (hs : d.Stocked cells) (size : Nat) : (d.act (.reserve size)).Stocked cells := by
  rw [Desk.act]
  by_cases hsize : size < Header.size
  · have hrefused : RecordFile.reserve size d.file =
        .error (.range (.slotBelowHeader size Header.size)) d.file := by
      rw [RecordFile.reserve, if_pos hsize]
      rfl
    rw [hrefused]
    exact hs
  · have hsize := Nat.not_lt.mp hsize
    by_cases hcap : lengthLimit ≤ size - Header.size
    · rw [reserve_tooLarge hsize hcap]
      exact hs
    · have hcap := Nat.not_le.mp hcap
      rcases hs.tidy.tiled.reserve hsize hcap with ⟨f, hok, hcursor, _, hset⟩ | ⟨_, f, herr, hk, hu⟩
      · rw [hok]
        exact hs.appended hsize hcap hcursor hset
      · rw [herr]
        exact hs.keep hk hu

/-- Announcing a payload changes no cell. -/
lemma begin (hs : d.Stocked cells) {start length capacity : Nat} {stamp : Stamp}
    (hslot : (start, Header.size + capacity) ∈ d.slots) :
    (d.act (.begin start length capacity stamp)).Stocked cells := by
  rw [Desk.act]
  rcases beginWrite_cases start length capacity stamp hs.tidy.tiled.dropTail with
    ⟨e, herr⟩ | ⟨hfit, hok⟩
  · rw [herr]
    exact hs
  · rw [hok]
    refine (hs.keep hs.tidy.tiled.untailed d.file.sealedAt_untailed).pend fun p hp => ?_
    rcases List.mem_append.mp hp with hp | hp
    · exact hs.tidy.pending p hp
    · obtain rfl := List.mem_singleton.mp hp
      exact ⟨hslot, hfit⟩

lemma feed (hs : d.Stocked cells) (i : Nat) (piece : Bytes) :
    (d.act (.feed i piece)).Stocked cells := by
  rw [Desk.act]
  split
  · rename_i p hp
    refine hs.pend fun q hq => ?_
    rcases List.mem_or_eq_of_mem_set hq with hq | rfl
    · exact hs.tidy.pending q hq
    · obtain ⟨hstart, hcapacity, hlength⟩ := Tidy.write_fields p.writer piece
      dsimp only
      rw [hstart, hcapacity, hlength]
      exact hs.tidy.pending p (List.mem_of_getElem? hp)
  · exact hs

/-- A payload that is complete goes into its slot, in front of the tail if there is one. -/
lemma commit (hs : d.Stocked cells) (i : Nat) :
    (d.act (.commit i)).Stocked (d.note cells (.commit i)) := by
  cases hp : d.pending[i]? with
  | none =>
    simp only [Desk.act, note, hp]
    exact hs
  | some p =>
    have hmem := List.mem_of_getElem? hp
    simp only [Desk.act, note, hp]
    by_cases hcomplete : p.writer.Complete
    · -- The pieces are in the slot already, and the commit fills the header in.
      obtain ⟨h, c, hm, _, hr, hpayload, hok⟩ := hs.tidy.commit_fills hmem hcomplete
      rw [header_of_gathered hcomplete.2] at hr hpayload hok
      have ht := hs.tidy.rewrite hm hr true (d.late || p.early)
      have hread := ht.tiled.read_eq (Row.mem_put.mpr (Or.inl rfl))
      rw [hpayload] at hread
      have hput := hs.put (c := ⟨p.writer.stamp, p.writer.gathered, true⟩)
        (hs.tidy.pending p hmem).1 ht rfl rfl (hread.trans (if_neg (not_not.mpr rfl)))
        fun q hq hqo =>
          hs.tidy.tiled.read_congr ht.tiled hq (Row.mem_put.mpr (Or.inr ⟨hq, hqo⟩))
            (hs.tidy.tiled.apart_of_rewrites hm hr hq hqo)
      rw [if_pos hcomplete, hok]
      exact hput.erase i
    · rw [if_neg hcomplete, commit_incomplete hcomplete]
      exact hs.erase i

/-- **A payload that is written at once** is what its cell holds from then on. -/
lemma write (hs : d.Stocked cells) {start capacity : Nat} (stamp : Stamp) (payload : Bytes)
    (hslot : (start, Header.size + capacity) ∈ d.slots) :
    (d.act (.write start stamp payload capacity)).Stocked
      (d.note cells (.write start stamp payload capacity)) := by
  rw [Desk.act, note]
  have hm := mem_row_of_slot hslot cells
  have hsize := hs.slotSize_header hslot (cells start)
  by_cases hfit : payload.length ≤ capacity
  · obtain ⟨f, hok, hset, hcursor, _, hread⟩ := hs.tidy.tiled.writePayload hm stamp hsize hfit
    rw [if_pos hfit, hok]
    have hsame := (hs.slotSize_header hslot ⟨stamp, payload, true⟩).trans hsize.symm
    exact hs.put hslot (hs.tidy.set hm hsame hset true) rfl hcursor hread hset.reads
  · rw [if_neg hfit]
    rcases beginWrite_cases start payload.length capacity stamp hs.tidy.tiled.dropTail with
      ⟨e, herr⟩ | ⟨hle, _⟩
    · have hrefused : writePayload start stamp payload capacity d.file = .error e d.file :=
        bind_of_error herr
      rw [hrefused]
      exact hs
    · exact absurd hle hfit

/-- The payload of a slot stays when it is marked unused. -/
lemma mark (hs : d.Stocked cells) {start capacity : Nat}
    (hslot : (start, Header.size + capacity) ∈ d.slots) :
    (d.act (.mark start)).Stocked (d.note cells (.mark start)) := by
  rw [Desk.act, note]
  have ht := hs.tidy.tiled
  have hm := mem_row_of_slot hslot cells
  obtain ⟨f, hok, hset, hcursor⟩ := ht.markUnused hm
  obtain ⟨_, _, hpayload, hsum⟩ :=
    (readBounded_eq_ok_iff ht.cursor_le ht.cursor_lt).mp (hs.read_slot hslot)
  rw [hok]
  -- The checksum is about the payload alone, so it is still right under the tombstone.
  refine hs.put hslot (hs.tidy.set hm (Header.slotSize_tombstone _) hset true) rfl hcursor ?_
    hset.reads
  rw [hset.tiled.read_eq (Row.mem_put.mpr (Or.inl rfl)), ht.payloadAt_of_markUnused hm hok,
    ← hpayload, hsum]
  exact if_neg (not_not.mpr rfl)

/-- Sealing puts the tail behind all cells. -/
lemma sealWith (hs : d.Stocked cells) (stamp : Stamp) (payload : Bytes) :
    (d.act (.sealWith stamp payload)).Stocked cells := by
  rw [Desk.act]
  rcases hs.tidy.tiled.sealWith stamp payload with
    ⟨f, hok, hk, hstart, hshort, hsize, hslice⟩ | ⟨_, e, f, herr, hk, hu⟩
  · rw [hok]
    refine ⟨⟨hk.tiled, hs.tidy.slots, fun p hp => ?_, fun start hs => ?_⟩, fun x hx => ?_,
      fun o ho => hs.beyond o (Nat.le_trans (Nat.le_of_eq hk.cursor.symm) ho)⟩
    · obtain ⟨q, hq, rfl⟩ := List.mem_map.mp hp
      exact hs.tidy.pending q hq
    · cases hstart.symm.trans hs
      exact ⟨stamp, payload, hsize, hslice, hk.tiled.below, hshort⟩
    · exact (hk.reads _ (mem_row _ hx)).trans (hs.reads x hx)
  · rw [herr]
    exact hs.keep hk hu

/-- **One call in order** puts into the cells what it says. -/
theorem act (hs : d.Stocked cells) {call : Call} (ho : d.inOrder call = true) :
    (d.act call).Stocked (d.note cells call) := by
  cases call with
  | reserve size => exact hs.reserve size
  | begin start length capacity stamp => exact hs.begin (of_decide_eq_true ho)
  | feed i piece => exact hs.feed i piece
  | commit i => exact hs.commit i
  | write start stamp payload capacity => exact hs.write stamp payload (of_decide_eq_true ho)
  | mark start =>
    obtain ⟨⟨o, n⟩, hslot, ho⟩ := List.any_eq_true.mp ho
    obtain rfl : o = start := of_decide_eq_true ho
    obtain ⟨h, _, rfl⟩ := hs.tidy.slot hslot
    exact hs.mark hslot
  | sealWith stamp payload => exact hs.sealWith stamp payload

lemma withFlags (hs : d.Stocked cells) (orderly : Bool) : { d with orderly }.Stocked cells :=
  ⟨⟨hs.tidy.tiled, hs.tidy.slots, hs.tidy.pending, hs.tidy.tail⟩, hs.reads, hs.beyond⟩

end Stocked

lemma stocked_fresh : fresh.Stocked fun _ => .blank :=
  ⟨⟨.empty, rfl, fun _ hp => (by cases hp), fun _ hs => (by cases hs)⟩, fun _ hx => (by cases hx),
    fun _ _ => rfl⟩

/-- **After every run in order the slots that were handed out tile the file.** -/
theorem Run.tidy (run : Run calls d) (ho : d.orderly = true) : ∃ row, d.Tidy row := by
  suffices ∃ cells, d.Stocked cells from this.elim fun _ hs => ⟨_, hs.tidy⟩
  induction run with
  | opened => exact ⟨_, stocked_fresh⟩
  | next _ call ih =>
    obtain ⟨hbefore, hcall⟩ := Bool.and_eq_true_iff.mp ho
    obtain ⟨cells, hs⟩ := ih hbefore
    exact ⟨_, (hs.act hcall).withFlags _⟩

/-! ## Sessions -/

/-- What a caller may do. -/
inductive Use
  | call (call : Call)
  | dropTail

/-- Whether a use names a slot as it was handed out. -/
def permits (d : Desk) : Use → Bool
  | .call call => d.inOrder call
  | .dropTail => true

/-- The desk after a use. -/
def after (d : Desk) : Use → Desk
  | .call call => d.act call
  | .dropTail => { d with file := final (RecordFile.dropTail d.file) }

/-- The cells after a use. -/
def noteUse (d : Desk) (cells : Cells) : Use → Cells
  | .call call => d.note cells call
  | .dropTail => cells

/-- **Uses in order one after another** on an empty file, by any number of callers. -/
inductive Session : Desk → Cells → Prop
  | opened : Session fresh fun _ => .blank
  | next {d : Desk} {cells : Cells} (session : Session d cells) (use : Use)
      (permitted : d.permits use = true) : Session (d.after use) (d.noteUse cells use)

/-- **Every session keeps the cells.** -/
lemma Session.stocked (session : Session d cells) : d.Stocked cells := by
  induction session with
  | opened => exact stocked_fresh
  | @next d _ _ use permitted ih =>
    cases use with
    | call call => exact ih.act permitted
    | dropTail =>
      rw [after, ih.tidy.tiled.dropTail]
      exact ih.keep ih.tidy.tiled.untailed d.file.sealedAt_untailed

/-- Regions that follow one another. -/
def Chained (start : Nat) : List (Nat × Nat) → Nat → Prop
  | [], stop => start = stop
  | x :: xs, stop => x.1 = start ∧ Chained (start + x.2) xs stop

/-- Slots that fill a range follow one another. -/
lemma chained_extents {c : Content} {row : Row} {start stop : Nat}
    (hf : Row.Fills c start row stop) : Chained start row.extents stop := by
  induction hf with
  | nil => rfl
  | cons _ _ ih => exact ⟨rfl, ih⟩

/-- **The slots that were handed out are found and read as cells.** -/
structure Shelved (d : Desk) (cells : Cells) : Prop where
  /-- The slots lie one behind the other, from the beginning of the file up to the cursor. -/
  contiguous : Chained 0 d.slots d.file.cursor
  apart : d.slots.Pairwise fun x y => x.1 + x.2 ≤ y.1
  /-- A scan visits each slot once, in the order of the file, and ends at the cursor. -/
  scanned : d.file.slots 0 d.file.cursor =
    (.ok (.ofRow (cells.row d.slots) d.file.cursor false), cells.row d.slots)
  read : ∀ x ∈ d.slots,
    d.file.read x.1 = .ok ((cells x.1).header (x.2 - Header.size), (cells x.1).payload)
  /-- A slot is handed out as long as the file stays below the last position. -/
  grows : ∀ size, Header.size ≤ size → size - Header.size < lengthLimit →
    d.file.cursor + size < positionLimit →
    (d.act (.reserve size)).slots = d.slots ++ [(d.file.cursor, size)]

/-- What the cells say of the slots is what the file answers. -/
lemma Stocked.shelved (hs : d.Stocked cells) : d.Shelved cells where
  contiguous := hs.tidy.slots ▸ chained_extents hs.tidy.tiled.fills
  apart := hs.tidy.slots ▸ List.pairwise_map.mpr hs.tidy.tiled.fills.pairwise
  scanned := by
    have htake : ∀ o h (seen : Row), (.ok (seen ++ [(o, h)]) : Except Error Row) =
        .ok (seen ++ [(o, h)]) := fun _ _ _ => rfl
    have hscan := hs.tidy.tiled.scan htake []
    rwa [Row.gather_slots, List.nil_append] at hscan
  read := hs.reads
  grows size hsize hcap hpos := by
    rcases hs.tidy.tiled.reserve hsize hcap with ⟨f, hok, _⟩ | ⟨hfull, _⟩
    · rw [Desk.act, hok]
    · omega

/-- **Slots are independent cells.**  Whatever the callers do with their slots, and however their
calls follow one another, the slots lie one behind the other, a scan finds all of them, and each is
read as it was last written. -/
theorem Session.slots_are_cells (session : Session d cells) : d.Shelved cells :=
  session.stocked.shelved

/-- A slot that was written, one that never was, a tail that is put on and cut off again, and the
first slot marked unused. -/
theorem Session.slots_are_cells_marked : ∃ d cells, Session d cells ∧ d.slots = [(0, 38), (38, 40)] ∧
    cells 0 = ⟨⟨.sample, 1⟩, [7, 8], false⟩ ∧ cells 38 = .blank ∧ d.Shelved cells := by
  have reserved := (Session.opened.next (.call (.reserve 38)) rfl).next (.call (.reserve 40)) rfl
  have written := reserved.next (.call (.write 0 ⟨.sample, 1⟩ [7, 8] 2)) (by decide +kernel)
  have cut := (written.next (.call (.sealWith ⟨.reserved, 2⟩ [9])) rfl).next .dropTail rfl
  have marked := cut.next (.call (.mark 0)) (by decide +kernel)
  exact ⟨_, _, marked, by decide +kernel, by decide +kernel, by decide +kernel, marked.slots_are_cells⟩

end Desk

end SlotStore
