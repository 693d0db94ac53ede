import Mathlib.Tactic.Common
import SlotStore.Proofs.Volume.Tally

/-!
# Volumes whose table tells versions

The live entries of a volume carry the versions of their slots as long as everything that changes
one changes the other.  That holds however many versions were handed out, also when they begin again
from zero and a scan no longer finds the newest slot of a key: the table then shows another slot,
and tells the version of that one.

* `Volume.Faithful` : the table shows slots of the file, and a sealed tail gives it back;
* `Volume.Faithful.enter`, `Volume.Faithful.exchange`, `Volume.Faithful.giveUp`,
  `Volume.Faithful.persist` : the writes and sealing;
* `Volume.faithful_scan`, `Volume.Faithful.rescan`, `Volume.Faithful.resume` : a file is opened
  again;
* `Volume.Faithful.read_live` : a live entry is read with its own version.
-/

namespace SlotStore.Volume

open Steps

variable {v v' : Volume} {row shown : Row} {used : List Key} {k : Key} {e : Entry}

/-- A tail gives a table back that is like the one it was written with. -/
def Resumable (v : Volume) : Prop :=
  ∃ t, Toc.Alike v.toc t ∧ t.ready = true ∧ t.signal = .succeeded ∧
    load (.ofContent v.file.content) = .ok (some ⟨v.file, t⟩)

/-- **The table of a volume shows slots of its file**, and so does the table that a sealed tail
gives back.  All keys of the slots are among those `used`. -/
structure Faithful (v : Volume) (used : List Key) : Prop where
  shows : ∃ row shown, Loose v row shown ∧ row.Known used
  resumes : v.file.isSealed = true → v.Resumable

namespace Faithful

lemma of_unsealed (hl : Loose v row shown) (hk : row.Known used) (hu : v.file.sealedAt = none) :
    v.Faithful used :=
  ⟨⟨row, shown, hl, hk⟩, fun hsealed => absurd hsealed (RecordFile.not_isSealed hu)⟩

lemma mono (hv : v.Faithful used) {used' : List Key} (h : ∀ k ∈ used, k ∈ used') :
    v.Faithful used' := by
  obtain ⟨row, shown, hl, hk⟩ := hv.shows
  exact ⟨⟨row, shown, hl, hk.mono h⟩, hv.resumes⟩

/-! ## Writing -/

/-- What a write that found no room leaves: the tail is gone, or all is as it was but for the
version that was handed out. -/
lemma left (hv : v.Faithful used) (hl : Loose v row shown) (hk : row.Known used) {f : RecordFile}
    (hleft : Left v.file row f) : Faithful ⟨f, v.draw.toc⟩ used := by
  refine ⟨⟨row, shown, hl.left hleft, hk⟩, fun hsealed => ?_⟩
  rcases hleft with rfl | ⟨_, hu⟩
  · obtain ⟨t, halike, hready, hsignal, hload⟩ := hv.resumes hsealed
    exact ⟨t, ⟨halike.find?, halike.spare?⟩, hready, hsignal, hload⟩
  · exact absurd hsealed (RecordFile.not_isSealed hu)

/-- **A payload is entered** under a key that nobody used. -/
theorem enter (hv : v.Faithful used) (hr : k.isReserved = false) (hfresh : k ∉ used)
    (payload : Bytes) : (final (Volume.enter k payload v)).Faithful (k :: used) := by
  obtain ⟨row, shown, hl, hk⟩ := hv.shows
  have hnone := hl.find?_eq_none hr fun p hp hpr heq => hfresh (heq ▸ hk p hp hpr)
  have hmore := hk.mono fun j => List.mem_cons_of_mem k
  rcases hl.entered hr hnone payload with
    ⟨o, h, v', henter, _, hkey, hu, hl'⟩ | ⟨err, f, henter, hleft⟩
  · rw [henter]
    exact .of_unsealed hl' (hmore.put o fun _ => hkey ▸ List.mem_cons_self) hu
  · rw [henter]
    exact (hv.left hl hk hleft).mono fun j => List.mem_cons_of_mem k

/-- **The payload of a live entry is exchanged**, or not for want of room. -/
theorem exchange (hv : v.Faithful used) (hfind : v.toc.find? k = some e) (hlive : e.isFree = false)
    (payload : Bytes) : (final (Volume.exchange k e payload v)).Faithful used := by
  obtain ⟨row, shown, hl, hk⟩ := hv.shows
  obtain ⟨own, _, hm, _, hkey, hr, _⟩ := hl.slot hfind hlive
  have hknown : k ∈ used := hkey ▸ hk _ hm (hkey.symm ▸ hr)
  rcases hl.exchanged hfind hlive payload with
    ⟨h, v', hexchange, _, hhkey, hu, hl'⟩ |
    ⟨o, h, old, v', hexchange, _, hhkey, _, holdm, _, _, _, hu, hl'⟩ | ⟨err, f, hexchange, hleft⟩
  · rw [hexchange]
    exact .of_unsealed hl' (hk.put _ fun _ => hhkey ▸ hknown) hu
  · rw [hexchange]
    exact .of_unsealed hl' ((hk.put _ fun _ => hhkey ▸ hknown).put _ (hk (e.offset, old) holdm)) hu
  · rw [hexchange]
    exact hv.left hl hk hleft

/-- **A live entry is given up.** -/
theorem giveUp (hv : v.Faithful used) (hfind : v.toc.find? k = some e) (hlive : e.isFree = false) :
    (final (Volume.giveUp k e v)).Faithful used := by
  obtain ⟨row, shown, hl, hk⟩ := hv.shows
  obtain ⟨old, v', hgive, hm, _, _, hu, hl'⟩ := hl.givenUp hfind hlive
  rw [hgive]
  exact .of_unsealed hl' (hk.put _ (hk (e.offset, old) hm)) hu

/-! ## Sealing and opening -/

/-- **A file is sealed** with the table, or left without tail. -/
theorem persist (hv : v.Faithful used) : (final (Volume.persist v)).Faithful used := by
  obtain ⟨row, shown, hl, hk⟩ := hv.shows
  rw [persist_eq hl.ready]
  rcases hl.tiled.sealWith ⟨Key.reserved, v.toc.nextVersion⟩ v.snapshot with
    ⟨f, hok, hkeeps, hstart, hshort, hsize, hslice⟩ | ⟨_, err, f, herr, hkeeps, hu⟩
  · have hends : EndsIn f.content v.file.cursor ⟨Key.reserved, v.toc.nextVersion⟩ v.snapshot :=
      ⟨hsize, hslice, hkeeps.tiled.below, hshort⟩
    have hspan : positionLimit ≤ Bytes.span 8 := by decide
    have hlt := hl.tiled.cursor_lt
    have hload := load_of_endsIn hends rfl (fits_snapshot hl.fits (by omega)) rfl rfl
    have hfile : f = ⟨f.content, v.file.cursor, some v.file.cursor⟩ := by
      rw [← hstart, ← hkeeps.cursor]
    rw [← hfile] at hload
    rw [onFile_ok hok]
    exact ⟨⟨row, shown, ⟨hkeeps.tiled, hl.described, hl.veils, hl.ready, hl.signal⟩, hk⟩,
      fun _ => ⟨_, alike_restored v.file.cursor v.toc, rfl, rfl, hload⟩⟩
  · rw [onFile_error herr]
    exact .of_unsealed ⟨hkeeps.tiled, hl.described, hl.veils, hl.ready, hl.signal⟩ hk hu

end Faithful

/-- **A file of slots is scanned**, whatever slots they are. -/
theorem faithful_scan {c : Content} {stop : Nat} (hf : Row.Fills c 0 row stop) (hr : c.Ragged stop)
    (hpos : stop < positionLimit) (hk : row.Known used) :
    ∃ v, runRebuild c.size ⟨.ofContent c, .unfinished⟩ = .ok () v ∧ v.toc.signal = .succeeded ∧
      v.Faithful used := by
  have hcount : ∀ k, (row.uses k : Int) ≤ row.uses k := fun _ => Int.le_refl _
  obtain ⟨v, hrun, hsignal, row', shown, ht⟩ := tallied_scan hf hr hpos hcount hk
  exact ⟨v, hrun, hsignal, .of_unsealed ht.loose ht.known ht.unsealed⟩

namespace Faithful

/-- **A file without tail is scanned** when it is opened. -/
theorem rescan (hv : v.Faithful used) (hu : v.file.sealedAt = none) :
    ∃ v', runRebuild v.file.content.size ⟨.ofContent v.file.content, .unfinished⟩ = .ok () v' ∧
      v'.toc.signal = .succeeded ∧ v'.Faithful used := by
  obtain ⟨row, shown, hl, hk⟩ := hv.shows
  exact faithful_scan hl.tiled.fills (hl.tiled.ragged hu) hl.tiled.cursor_lt hk

/-- **The table of a sealed file** is loaded when it is opened. -/
theorem resume (hv : v.Faithful used) (hsealed : v.file.isSealed = true) :
    ∃ v', load (.ofContent v.file.content) = .ok (some v') ∧ v'.Faithful used := by
  obtain ⟨row, shown, hl, hk⟩ := hv.shows
  obtain ⟨t, halike, hready, hsignal, hload⟩ := hv.resumes hsealed
  have hloose : Loose ⟨v.file, t⟩ row shown :=
    ⟨hl.tiled, hl.described.congr halike fun _ => Iff.rfl, hl.veils, hready, hsignal⟩
  exact ⟨_, hload, ⟨row, shown, hloose, hk⟩, fun _ => ⟨t, .refl t, hready, hsignal, hload⟩⟩

/-! ## Versions -/

/-- **A live entry is read with its own version.** -/
theorem read_live (hv : v.Faithful used) (he : e ∈ v.toc.activeEntries) {h : Header}
    {payload : Bytes} (hread : v.file.read e.offset = .ok (h, payload)) :
    h.version = e.version := by
  obtain ⟨row, shown, hl, _⟩ := hv.shows
  obtain ⟨hfind, hlive⟩ := hl.described.mem_activeEntries.mp he
  obtain ⟨h', _, hm, _, _, _, hof⟩ := hl.slot hfind hlive
  rw [hl.tiled.read_eq hm] at hread
  split at hread
  · cases hread
  · cases hread
    exact (congrArg Entry.version hof).symm

end Faithful

end SlotStore.Volume
