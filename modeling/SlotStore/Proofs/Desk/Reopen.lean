import Mathlib.Tactic.Common
import SlotStore.Proofs.Desk.Cells

/-!
# Files that are opened again

A change cuts the tail off, so that a table which was sealed before does not outlive it.  What the
file is opened with is still decided by the bytes at its end alone.  They present a table in two
cases: a payload that was begun before the file was sealed is committed after it, or the bytes of
the last slot happen to spell a table, or were chosen to.  In all other cases the file is scanned.

* `Desk.Rescanned` : what a file gets that is scanned when it is opened again;
* `Desk.Run.reopened` : a changed file is scanned exactly if it presents no table;
* `Desk.Tidy.forge` : any table can be presented by the payload of the last slot;
* `Desk.Tidy.commit_presents` : a late commit leaves the table of the tail.
-/

namespace SlotStore

open RecordFile Volume

namespace Volume

/-- What holds of an entry, free or not, holds of all regions after it is merged. -/
lemma forall_regions_merged {P : Entry → Prop} (hfree : ∀ e, P e → P { e with isFree := true })
    (row : Row) : ∀ {t : Toc}, (∀ e ∈ t.regions, P e) → (∀ p ∈ row, P (.ofHeader p.1 p.2)) →
      ∀ e ∈ (merged row t).regions, P e := by
  induction row with
  | nil => exact fun ht _ => ht
  | cons p rest ih =>
    intro t ht hrow
    refine ih (Toc.forall_regions_merge hfree ht (hrow p List.mem_cons_self)) fun q hq => ?_
    exact hrow q (List.mem_cons_of_mem p hq)

/-- The regions of the table of a scan are slots that it went over. -/
lemma extent_mem_of_scanned {row : Row} {e : Entry} (he : e ∈ (scannedToc row).regions) :
    (e.offset, e.size) ∈ row.extents :=
  forall_regions_merged (P := fun e => (e.offset, e.size) ∈ row.extents) (fun _ h => h) row
    (fun _ h => by cases h) (fun p hp => List.mem_map.mpr ⟨p, hp, rfl⟩) e he

/-- A file of the same length and bytes presents the same table. -/
lemma Presents.congr {c c' : Content} {start : Nat} {s : Snapshot} (hp : Presents c start s)
    (hsize : c'.size = c.size) (ha : c.Agrees c' start c.size) : Presents c' start s := by
  obtain ⟨h, hh, hstop, hkey, huse, hsum, hsnap⟩ := hp.slot
  have hs := h.size_le_slotSize
  have hl := hh.length_le
  have hhdr : Footer.size ≤ Header.size := by decide
  have hbody : c'.slice (start + Header.size) h.length.toNat =
      c.slice (start + Header.size) h.length.toNat :=
    (Content.slice_congr (ha.mono (by omega) (by omega))).symm
  have hhead : c'.HeaderAt start h := hh.congr (ha.mono (Nat.le_refl _) (by omega))
  refine ⟨hsize ▸ hp.room, ?_, ⟨h, hhead, by omega, hkey, huse, hbody ▸ hsum, hbody ▸ hsnap⟩,
    hp.format, hp.dataEnd⟩
  rw [hsize, ← Content.slice_congr (ha.mono (by omega) (by omega))]
  exact hp.footer

end Volume

namespace Desk

variable {d : Desk} {row : Row} {calls : List Call} {start : Nat} {s : Snapshot} {v : Volume}

/-! ## Scanning again -/

/-- **A file is scanned when it is opened again.**  No table at its end is accepted; the regions of
the table that it gets come from headers, and the cursor stands behind them.  If the callers kept to
their slots, the scan succeeds, all regions are slots that were handed out, but for a tail that is
still there, and the cursor stands behind all slots that were handed out. -/
structure Rescanned (d : Desk) (v : Volume) : Prop where
  mount : Volume.mount (.ofContent d.file.content) =
    (⟨.ofContent d.file.content, .unfinished⟩, some d.file.content.size)
  scanned : runRebuild d.file.content.size ⟨.ofContent d.file.content, .unfinished⟩ = .ok () v ∨
    ∃ err, runRebuild d.file.content.size ⟨.ofContent d.file.content, .unfinished⟩ = .error err v
  headed : Headed d.file.content v.file.cursor v.toc
  succeeds : d.orderly = true →
    runRebuild d.file.content.size ⟨.ofContent d.file.content, .unfinished⟩ = .ok () v
  slots : d.orderly = true → ∀ e ∈ v.toc.regions,
    (e.offset, e.size) ∈ d.slots ∨ d.file.sealedAt = some e.offset
  behind : d.orderly = true → ∀ x ∈ d.slots, x.1 + x.2 ≤ v.file.cursor

/-- A file whose slots tile it is scanned to its end. -/
lemma Tidy.remount (ht : d.Tidy row) :
    ∃ v, runRebuild d.file.content.size ⟨.ofContent d.file.content, .unfinished⟩ = .ok () v ∧
      (∀ e ∈ v.toc.regions, (e.offset, e.size) ∈ d.slots ∨ d.file.sealedAt = some e.offset) ∧
      ∀ x ∈ d.slots, x.1 + x.2 ≤ v.file.cursor := by
  have hbounds : ∀ x ∈ d.slots, x.1 + x.2 ≤ d.file.cursor := by
    intro x hx
    obtain ⟨h, hm, hsize⟩ := ht.slot hx
    exact hsize ▸ ht.tiled.bounds hm
  cases hs : d.file.sealedAt with
  | none =>
    refine ⟨_, runRebuild_fills ht.tiled.fills (ht.tiled.ragged hs) ht.tiled.cursor_lt, ?_, hbounds⟩
    intro e he
    rw [ht.slots]
    exact Or.inl (extent_mem_of_scanned he)
  | some start =>
    obtain ⟨stamp, payload, hends⟩ := ht.tail start hs
    have hstart := ht.tiled.rest.eq_cursor hs
    have hslot : (Header.ofPayload stamp payload payload.length).slotSize =
        Header.size + payload.length := Header.slotSize_ofPayload hends.short
    have hsize := hends.size
    have hbelow := hends.below
    have hfooter : 0 < Footer.size ∧ Footer.size < Header.size := by decide
    -- the slot of the tail is scanned like any other, and the footer is a torn rest
    have hfills := ht.tiled.fills.append (.cons (hstart ▸ hends.headerAt) (.nil _))
    refine ⟨_, runRebuild_fills hfills (.short (by omega) (by omega)) (by omega), ?_, ?_⟩
    · intro e he
      have hx := extent_mem_of_scanned he
      rw [Row.extents, List.map_append] at hx
      rcases List.mem_append.mp hx with he | he
      · rw [ht.slots]
        exact Or.inl he
      · obtain ⟨ho, _⟩ := Prod.mk.inj (List.mem_singleton.mp he)
        exact Or.inr (by rw [ho, hstart])
    · exact fun x hx => Nat.le_trans (hbounds x hx) (Nat.le_add_right _ _)

/-- **A file is scanned exactly if it presents no table.** -/
theorem Run.rescanned_iff (run : Run calls d) :
    (∃ v, d.Rescanned v) ↔ Bare d.file.content := by
  have hbelow := run.kept.below
  constructor
  · rintro ⟨v, hv⟩
    exact (mount_eq_scan_iff hbelow).mp hv.mount
  · intro hnone
    have hmount := (mount_eq_scan_iff hbelow).mpr hnone
    obtain ⟨v, hrun, hheaded⟩ := runRebuild_headed hbelow
    have hsame : d.orderly = true →
        runRebuild d.file.content.size ⟨.ofContent d.file.content, .unfinished⟩ = .ok () v ∧
        (∀ e ∈ v.toc.regions, (e.offset, e.size) ∈ d.slots ∨ d.file.sealedAt = some e.offset) ∧
        ∀ x ∈ d.slots, x.1 + x.2 ≤ v.file.cursor := by
      intro ho
      obtain ⟨row, ht⟩ := run.tidy ho
      obtain ⟨v', hok, hslots, hbehind⟩ := ht.remount
      rcases hrun with h | ⟨err, h⟩
      · cases hok.symm.trans h
        exact ⟨hok, hslots, hbehind⟩
      · cases hok.symm.trans h
    exact ⟨v, hmount, hrun, hheaded, fun ho => (hsame ho).1, fun ho => (hsame ho).2.1,
      fun ho => (hsame ho).2.2⟩

/-! ## Tables that are presented -/

/-- **A table that is presented without a tail begins inside a slot**, so that the cursor would be
moved back into it. -/
lemma Tidy.inside (ht : d.Tidy row) (hu : d.file.sealedAt = none)
    (hp : Presents d.file.content start s) :
    ∃ x ∈ d.slots, x.1 ≤ start ∧ start < x.1 + x.2 := by
  obtain ⟨h, hh, hstop, _⟩ := hp.slot
  have hpos := h.slotSize_pos
  have hle := h.size_le_slotSize
  have hlt : start < d.file.cursor := by
    cases ht.tiled.rest with
    | clean _ size => omega
    | torn h' _ size head large =>
      by_contra hge
      obtain rfl : start = d.file.cursor := by omega
      obtain rfl := hh.unique head
      omega
    | tail hs => rw [hu] at hs; cases hs
  obtain ⟨p, hp, hfrom, hto⟩ := ht.tiled.fills.exists_mem_of_lt (Nat.zero_le _) hlt
  rw [ht.slots]
  exact ⟨_, List.mem_map.mpr ⟨p, hp, rfl⟩, hfrom, hto⟩

/-- A table without regions, for a data region of some length. -/
def blank (dataEnd : Nat) : Snapshot := ⟨Snapshot.currentFormat, dataEnd, 1, [], []⟩

/-- **A payload that is committed after the file was sealed** leaves the table of the tail. -/
theorem Tidy.commit_presents (ht : d.Tidy row) (hsealed : d.file.sealedAt = some start)
    (hp : Presents d.file.content start s) (i : Nat) :
    Presents (d.perform (.commit i)).file.content start s := by
  rw [perform, Desk.act]
  split
  · rename_i p hpending
    rcases ht.commit_rewrites (List.mem_of_getElem? hpending) with
      ⟨e, herr⟩ | ⟨h, h', c, hm, hr, hok⟩
    · rw [herr]
      exact hp
    · rw [hok]
      have hb := ht.tiled.bounds hm
      have hstart := ht.tiled.rest.eq_cursor hsealed
      exact hp.congr hr.size ((hr.behind _).mono (by omega) (Nat.le_refl _))
  · exact hp

/-- A table without regions that is still loaded after a slot was committed. -/
example :
    let calls : List Call := [.reserve 37, .begin 0 1 1 ⟨.sample, 1⟩, .feed 0 [7],
      .sealWith ⟨.reserved, 2⟩ (blank 37).write, .commit 0]
    let d := calls.foldl perform fresh
    d.changed = true ∧ d.late = true ∧
      (load (.ofContent d.file.content)).toOption.map (·.map (·.file.cursor)) = some (some 37) := by
  decide +kernel

/-- **Any table can be presented** by a payload in a new slot, as long as there is room for it: the
payload is the tail that the file would be sealed with if it ended where the payload begins. -/
theorem Tidy.forge (ht : d.Tidy row) (stamp : Stamp) {stamp' : Stamp} {payload : Bytes}
    (hs : s.Fits) (hformat : s.format = Snapshot.currentFormat)
    (hend : s.dataEnd = d.file.cursor + Header.size) (hkey : stamp'.key = Key.reserved)
    (hpayload : payload = RecordFile.tail (d.file.cursor + Header.size) stamp' s.write)
    (hshort : payload.length < lengthLimit)
    (hroom : d.file.cursor + (Header.size + payload.length) < positionLimit) :
    Presents ((d.perform (.reserve (Header.size + payload.length))).perform
      (.write d.file.cursor stamp payload payload.length)).file.content
      (d.file.cursor + Header.size) s := by
  have hlength : payload.length = Header.size + s.write.length + Footer.size := by
    rw [hpayload, length_tail]
  have hcapacity : Header.size + payload.length - Header.size = payload.length := by omega
  rcases ht.tiled.reserve (Nat.le_add_right Header.size payload.length)
    (hcapacity.symm ▸ hshort) with ⟨f, hok, _, hsize, hset⟩ | ⟨hfull, _⟩
  · obtain ⟨f', hok', hset', _, hsize', hread⟩ := hset.tiled.writePayload
      (Row.mem_put.mpr (Or.inl rfl)) stamp (hcapacity.symm ▸ slotSize_placeholder hshort)
      (Nat.le_refl payload.length)
    obtain ⟨_, _, hbody, _⟩ := (readBounded_eq_ok_iff hset'.tiled.cursor_le
      hset'.tiled.cursor_lt).mp hread
    rw [untailed_of_none hset.unsealed] at hsize'
    rw [payloadAt, Header.length_ofPayload (Nat.le_refl _) hshort, hlength, hpayload] at hbody
    have hends : EndsIn f'.content (d.file.cursor + Header.size) stamp' s.write :=
      ⟨by omega, hbody.symm, hset'.tiled.below, by omega⟩
    simp only [perform, Desk.act, hok, hok']
    exact hends.presents hkey hs hformat hend
  · omega

/-- **A changed file is scanned when it is opened again exactly if it presents no table.**  Unless a
payload was committed that had been begun before the file was last sealed, the tail is gone then,
and a table can only be presented from inside a slot. -/
theorem Run.reopened (run : Run calls d) (hchanged : d.changed = true) :
    ((∃ v, d.Rescanned v) ↔ Bare d.file.content) ∧
      (d.late = false → d.file.sealedAt = none ∧ (d.orderly = true →
        ∀ start s, Presents d.file.content start s →
          ∃ x ∈ d.slots, x.1 ≤ start ∧ start < x.1 + x.2)) := by
  refine ⟨run.rescanned_iff, fun hlate => ?_⟩
  have hu := run.kept.cut hchanged hlate
  refine ⟨hu, fun ho start s hp => ?_⟩
  obtain ⟨row, ht⟩ := run.tidy ho
  exact ht.inside hu hp

/-- A file with one slot is scanned when it is opened again. -/
theorem Run.reopened_written : ∃ calls d v, Run calls d ∧ d.changed = true ∧ d.slots = [(0, 37)] ∧
    d.Rescanned v := by
  have run := (Run.opened.next (.reserve 37)).next (.write 0 ⟨.sample, 1⟩ [7] 1)
  have hmark : Footer.decode? (((fresh.perform (.reserve 37)).perform
      (.write 0 ⟨.sample, 1⟩ [7] 1)).file.content.slice 21 16) = none := by decide +kernel
  have hbare : Bare _ := fun start s hp => by cases hmark.symm.trans hp.footer
  obtain ⟨v, hv⟩ := (run.reopened (by decide +kernel)).1.mpr hbare
  exact ⟨_, _, v, run, by decide +kernel, by decide +kernel, hv⟩

/-- A tail with such a table, for a file that ends with a header. -/
def forged : Bytes := RecordFile.tail Header.size ⟨.reserved, 1⟩ (blank Header.size).write

/-- The payload of a slot is loaded as a table without regions, and the cursor moves back into that
slot. -/
theorem Run.reopened_forged : ∃ calls d v, Run calls d ∧ d.changed = true ∧ d.late = false ∧
    d.orderly = true ∧ d.slots = [(0, 94)] ∧ mount (.ofContent d.file.content) = (v, none) ∧
    v.toc.regions = [] ∧ v.file.cursor = 36 := by
  have run := (Run.opened.next (.reserve (Header.size + forged.length))).next
    (.write 0 ⟨.sample, 1⟩ forged forged.length)
  obtain ⟨row, ht⟩ := Run.opened.tidy rfl
  have hfits : (blank Header.size).Fits :=
    ⟨by decide, fun _ h => (by cases h), fun _ h => (by cases h)⟩
  have hshort : forged.length < lengthLimit := by decide +kernel
  have hroom : fresh.file.cursor + (Header.size + forged.length) < positionLimit := by
    decide +kernel
  have hpayload : forged = RecordFile.tail (fresh.file.cursor + Header.size) ⟨.reserved, 1⟩
      (blank Header.size).write := rfl
  have hp := ht.forge ⟨.sample, 1⟩ hfits rfl rfl rfl hpayload hshort hroom
  have hload := (load_eq_some_iff run.kept.below).mpr ⟨_, blank Header.size, hp, rfl⟩
  exact ⟨_, _, _, run, by decide +kernel, by decide +kernel, by decide +kernel, by decide +kernel,
    mount_of_load hload, rfl, rfl⟩

end Desk

end SlotStore
