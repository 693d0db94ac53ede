import Mathlib.Tactic.Common
import SlotStore.Proofs.Store.Run

/-!
# Slots and table after a run

Whatever a run does, the table of contents describes the whole file: each slot is the slot of one
live entry, one free entry, or retired, and a scan of the file comes to the same table.  Entities
may pass through any codec, and the file may be opened with its table or without it.

* `FileRules` : the rules of such runs;
* `Store.LaidOut`, `Run.laid_out` : no slot is lost, shared or misdescribed;
* `Store.Rebuilt`, `Run.rebuilt` : the table follows from the file.
-/

namespace SlotStore

variable {α : Type}

/-- The rules of a run of which only the file counts: entities are added under new keys, and the
store is opened again with its own table or by a scan. -/
structure FileRules (h : List (Event α)) (s : Store) (op : Operation α) : Prop where
  fresh : op.Fresh h
  reopens : op.Reopens s

section Runs

variable {c : Coding α} {h : List (Event α)} {s : Store} {op : Operation α}

/-- Every run leaves the volume sound. -/
lemma Run.sound (run : Run c FileRules h s) (hn : drawn h + 1 < versionLimit) :
    ∃ row, s.volume.Sound row (added h) (drawn h) := by
  obtain ⟨held, hs⟩ := run.stands (fun _ _ _ allowed => ⟨allowed.fresh, allowed.reopens⟩) hn
  exact hs.holds.sound

/-! ## The layout -/

/-- **No slot is lost, shared or misdescribed.**  The regions of the table are those of its live and
free entries and of its retired slots. -/
structure Store.LaidOut (s : Store) : Prop where
  disjoint : s.toc.regions.Pairwise fun a b => a.stop ≤ b.offset ∨ b.stop ≤ a.offset
  covers : ∀ i, i < s.stats.dataEnd ↔ ∃ e ∈ s.toc.regions, e.offset ≤ i ∧ i < e.stop
  counted : s.stats.slots.liveBytes + s.stats.slots.reclaimableBytes = s.stats.dataEnd
  header : ∀ e ∈ s.toc.regions, ∃ h, s.file.readHeader e.offset = .ok h ∧ h.slotSize = e.size ∧
    (h.inUse = true ↔ e ∈ s.toc.entries.items ∧ e.isFree = false)
  live : ∀ e ∈ s.toc.entries.items, e.isFree = false →
    ∃ h, s.file.readHeader e.offset = .ok h ∧ h.key = e.key ∧ h.version = e.version

/-- **A sound volume is laid out.** -/
lemma Volume.Sound.laidOut {row : Row} {used : List Key} {n : Nat}
    (hs : s.volume.Sound row used n) : s.LaidOut where
  disjoint := hs.described.regions_disjoint hs.tiled.fills
  covers i := by
    have hcover := hs.described.regions_cover hs.tiled.fills i
    rwa [and_iff_right (Nat.zero_le i)] at hcover
  counted := by
    have hsum := hs.described.stats_sum hs.tiled.fills
    rwa [Nat.zero_add] at hsum
  header e he := by
    rcases Toc.mem_regions.mp he with hk | ho
    · obtain ⟨_, h, hm, hof⟩ := hs.described.entry hk
      refine ⟨h, hs.tiled.readHeader hm, (congrArg Entry.size hof).symm, ?_⟩
      have hfree : e.isFree = !h.inUse := congrArg Entry.isFree hof
      rw [hfree, Bool.not_eq_false', and_iff_right (Toc.mem_entries_iff.mpr hk)]
    · obtain ⟨h, hm, hsize, hidle⟩ := hs.described.spare ho
      refine ⟨h, hs.tiled.readHeader hm, hsize.symm, ?_⟩
      rw [hidle]
      refine ⟨fun hu => (by cases hu), fun ⟨hentry, _⟩ => ?_⟩
      have hnone : s.toc.spare? e.offset = none :=
        hs.described.spare?_of_entry (Toc.mem_entries_iff.mp hentry)
      rw [ho] at hnone
      cases hnone
  live e he hlive := by
    obtain ⟨h, hm, _, hkey, hof⟩ := hs.slot (Toc.mem_entries_iff.mp he) hlive
    exact ⟨h, hs.tiled.readHeader hm, hkey, (congrArg Entry.version hof).symm⟩

/-- **After every run no slot is lost, shared or misdescribed.** -/
theorem Run.laid_out (run : Run c FileRules h s) (hn : drawn h + 1 < versionLimit) : s.LaidOut := by
  obtain ⟨row, hs⟩ := run.sound hn
  exact hs.laidOut

/-- A store with a live slot, a free one and a retired one is laid out. -/
theorem Run.laid_out_deleted : ∃ h s, Run .plain FileRules h s ∧ drawn h + 1 < versionLimit ∧
    s.toc.stats.live = 1 ∧ s.toc.stats.free = 1 ∧ s.toc.stats.retired = 1 ∧ s.LaidOut := by
  have hadd : FileRules (α := Bytes) [] .fresh (.add .sample [7]) :=
    ⟨⟨by decide, by decide⟩, trivial⟩
  have hother : ∀ h s, .filled 2 ∉ added h → FileRules (α := Bytes) h s (.add (.filled 2) [9]) :=
    fun _ _ h => ⟨⟨by decide, h⟩, trivial⟩
  have hupdate : ∀ h s, FileRules (α := Bytes) h s (.update .sample [7, 8]) :=
    fun _ _ => ⟨trivial, trivial⟩
  have hdelete : ∀ h s, FileRules h s (.delete (α := Bytes) (.filled 2)) :=
    fun _ _ => ⟨trivial, trivial⟩
  have opened : Run .plain FileRules [] .fresh := .opened Store.openFile_fresh
  have first := opened.next hadd
  have second := first.next (hother _ _ (by decide))
  -- The longer payload goes to the end of the file.
  have updated := second.next (hupdate _ _)
  have deleted := updated.next (hdelete _ _)
  exact ⟨_, _, deleted, by decide +kernel, by decide +kernel, by decide +kernel, by decide +kernel,
    deleted.laid_out (by decide +kernel)⟩

/-! ## The table from the file -/

/-- **The table follows from the file**: a scan of the data region with a new table finds whole
slots only, and comes to the same live entries, the same reusable slots, and a version that no slot
has. -/
structure Store.Rebuilt (s : Store) (summary : ScanSummary) (v : Volume) : Prop where
  scanned : Volume.rebuild s.stats.dataEnd ⟨s.file, .unfinished⟩ = .ok summary v
  whole : summary.torn = false
  file : v.file = s.file
  live : ∀ k e, v.toc.find? k = some e ∧ e.isFree = false ↔
    s.toc.find? k = some e ∧ e.isFree = false
  reusable : ∀ o size, v.toc.Reusable o size ↔ s.toc.Reusable o size
  newer : ∀ e ∈ s.toc.regions, ∀ h, s.file.readHeader e.offset = .ok h →
    h.version < v.toc.nextVersion

/-- **After every run the table can be rebuilt from the file.** -/
theorem Run.rebuilt (run : Run c FileRules h s) (hn : drawn h + 1 < versionLimit) :
    ∃ summary v, s.Rebuilt summary v := by
  obtain ⟨row, hs⟩ := run.sound hn
  obtain ⟨hdescribed, haged⟩ := Volume.scannedToc_sound hs.tiled.fills (hs.aged hn) hn
  refine ⟨_, _, {
    scanned := hs.rebuild
    whole := rfl
    file := rfl
    live := fun k e => hdescribed.live_iff.trans hs.described.live_iff.symm
    reusable := fun o size => hdescribed.reusable_iff.trans hs.described.reusable_iff.symm
    newer := fun e he h hread => ?_ }⟩
  have hx : (e.offset, e.size) ∈ s.toc.extents := List.mem_map.mpr ⟨e, he, rfl⟩
  obtain ⟨p, hp, hpe⟩ := List.mem_map.mp ((hs.described.mem_extents _).mp hx)
  have hp' : (e.offset, p.2) ∈ row := (Prod.mk.inj hpe).1 ▸ hp
  cases (hs.tiled.readHeader hp').symm.trans hread
  exact haged.below p hp

/-- A table is rebuilt in which the slot that a key was moved from is retired. -/
theorem Run.rebuilt_updated : ∃ h s, Run .plain FileRules h s ∧ drawn h + 1 < versionLimit ∧
    s.toc.stats.retired = 1 ∧ ∃ summary v, s.Rebuilt summary v := by
  have hadd : FileRules (α := Bytes) [] .fresh (.add .sample [7]) :=
    ⟨⟨by decide, by decide⟩, trivial⟩
  have hupdate : ∀ h s, FileRules (α := Bytes) h s (.update .sample [7, 8]) :=
    fun _ _ => ⟨trivial, trivial⟩
  have opened : Run .plain FileRules [] .fresh := .opened Store.openFile_fresh
  have added := opened.next hadd
  have updated := added.next (hupdate _ _)
  exact ⟨_, _, updated, by decide +kernel, by decide +kernel, updated.rebuilt (by decide +kernel)⟩

end Runs

end SlotStore
